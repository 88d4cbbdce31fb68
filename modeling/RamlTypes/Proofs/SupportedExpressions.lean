import RamlTypes.Proofs.LastSegments
import RamlTypes.Proofs.MappingFailures
import RamlTypes.Proofs.TargetLanguages

/-!
# Supported expressions

Nothing but the form of an expression decides whether it has a target type: there must be no map in
it, no array of several dimensions and no name without a last segment. The first of them that is
met, going into an expression before going on behind it, is what the mapping fails for. Whatever can
be mapped keeps its form.
-/
namespace RamlTypes

namespace TypeExpr

mutual

/-- An expression and all its parts, each before the parts of its own and from left to right. -/
def preorder : TypeExpr → List TypeExpr
  | named raw name qualifier => [named raw name qualifier]
  | array raw dimensions element => array raw dimensions element :: element.preorder
  | map raw value => map raw value :: value.preorder
  | union raw members => union raw members :: preorderAll members

def preorderAll : List TypeExpr → List TypeExpr
  | [] => []
  | expr :: rest => expr.preorder ++ preorderAll rest

end

/-- What an expression is refused for, whatever it is built from. -/
def refusal? : TypeExpr → Option MappingFailure
  | named raw name _ => if name = "" then some (.unnamed raw) else none
  | array raw dimensions _ =>
      if 1 < dimensions then some (.unsupported .nestedArray raw) else none
  | map raw _ => some (.unsupported .map raw)
  | union _ _ => none

theorem preorderAll_eq (exprs : List TypeExpr) : preorderAll exprs = exprs.flatMap preorder := by
  induction exprs with
  | nil => rfl
  | cons expr rest ih => rw [preorderAll, ih, List.flatMap_cons]

theorem preorder_eq (type : TypeExpr) :
    type.preorder = type :: type.operands.flatMap preorder := by
  cases type <;> simp [preorder, operands, preorderAll_eq]

variable {part : TypeExpr}

theorem IsPart.mem_preorder {type : TypeExpr} (inside : part.IsPart type) :
    part ∈ type.preorder := by
  induction inside with
  | self =>
    rw [preorder_eq]
    exact List.mem_cons_self
  | within listed _ ih =>
    rw [preorder_eq]
    exact List.mem_cons_of_mem _ (List.mem_flatMap.mpr ⟨_, listed, ih⟩)

mutual

theorem isPart_of_mem_preorder : ∀ {type : TypeExpr}, part ∈ type.preorder → part.IsPart type
  | .named raw name qualifier, member => by
    cases List.mem_singleton.mp member
    exact .self
  | .array raw dimensions element, member => by
    rcases List.mem_cons.mp member with rfl | inside
    · exact .self
    · exact .within (List.mem_singleton.mpr rfl) (isPart_of_mem_preorder inside)
  | .map raw value, member => by
    rcases List.mem_cons.mp member with rfl | inside
    · exact .self
    · exact .within (List.mem_singleton.mpr rfl) (isPart_of_mem_preorder inside)
  | .union raw members, member => by
    rcases List.mem_cons.mp member with rfl | inside
    · exact .self
    · obtain ⟨operand, listed, inside'⟩ := exists_of_mem_preorderAll inside
      exact .within listed inside'

theorem exists_of_mem_preorderAll :
    ∀ {types : List TypeExpr}, part ∈ preorderAll types → ∃ type ∈ types, part.IsPart type
  | [], member => by cases member
  | type :: rest, member => by
    rcases List.mem_append.mp member with here | later
    · exact ⟨type, List.mem_cons_self, isPart_of_mem_preorder here⟩
    · obtain ⟨type', listed, inside⟩ := exists_of_mem_preorderAll later
      exact ⟨type', List.mem_cons_of_mem _ listed, inside⟩

end

variable {primitive? : String → Option String}

mutual

/-- What is in the way of a mapping is the first part that is refused. -/
theorem map_failure_obstacle? (plain : KnowsNames primitive?) :
    ∀ type : TypeExpr, type.IsParsed →
      (type.obstacle? primitive?).map failure = type.preorder.findSome? refusal?
  | .named raw name qualifier, read => by
    rw [obstacle?, preorder, List.findSome?_singleton, refusal?]
    cases builtIn : primitive? raw with
    | none =>
      by_cases unnamed : name = ""
      · simp [unnamed, failure, TypeExpr.raw]
      · simp [unnamed]
    -- A text that is built in names something, so it is not refused either.
    | some target => simp [(plain.name_eq read builtIn).2]
  | .array raw dimensions element, read => by
    have unknown : primitive? raw = none := plain.eq_none read (by simp)
    have inner : element.IsParsed := read.operand (List.mem_singleton.mpr rfl)
    rw [obstacle?, preorder, List.findSome?_cons, refusal?, unknown]
    by_cases several : 1 < dimensions
    -- The array is met before anything inside of it.
    · simp [several, failure]
    · simp [several, map_failure_obstacle? plain element inner]
  | .map raw value, read => by
    have unknown : primitive? raw = none := plain.eq_none read (by simp)
    rw [obstacle?, preorder, List.findSome?_cons, refusal?, unknown]
    rfl
  | .union raw members, read => by
    have unknown : primitive? raw = none := plain.eq_none read (by simp)
    have inner : ∀ member ∈ members, member.IsParsed := fun _ listed => read.operand listed
    rw [obstacle?, preorder, List.findSome?_cons, refusal?, unknown]
    exact map_failure_obstacleAmong? plain members inner

theorem map_failure_obstacleAmong? (plain : KnowsNames primitive?) :
    ∀ types : List TypeExpr, (∀ type ∈ types, type.IsParsed) →
      (obstacleAmong? primitive? types).map failure = (preorderAll types).findSome? refusal?
  | [], _ => rfl
  | type :: rest, read => by
    rw [obstacleAmong?, preorderAll, List.findSome?_append, Option.map_or,
      map_failure_obstacle? plain type (read type List.mem_cons_self),
      map_failure_obstacleAmong? plain rest
        fun other listed => read other (List.mem_cons_of_mem _ listed)]

end

end TypeExpr

namespace TypeMapper

/-- The target has the form of the expression: a list for an array, a union of as many members with
their common ancestor for a union, and at the leaves what is built in, or else an object. -/
inductive MapsTo (m : TypeMapper) : TypeExpr → TargetType → Prop where
  | builtIn {raw name qualifier primitive : String} (known : m.primitive? raw = some primitive) :
      MapsTo m (.named raw name qualifier) (.primitive primitive)
  | object {raw name qualifier : String} (unknown : m.primitive? raw = none) :
      MapsTo m (.named raw name qualifier) (.objectRef name)
  | list {raw : String} {dimensions : Nat} {element : TypeExpr} {target : TargetType}
      (inside : MapsTo m element target) :
      MapsTo m (.array raw dimensions element) (.listOf target)
  | union {raw : String} {ancestor : Value} {members : List TypeExpr} {targets : List TargetType}
      (each : List.Forall₂ (MapsTo m) members targets)
      (typed : (m.hierarchy.commonAncestor m.universal (members.map (·.memberName))).outcome =
        .ok ancestor) :
      MapsTo m (.union raw members) (.unionOf ancestor targets)

variable {m : TypeMapper}

mutual

theorem mapsTo_of_mapType (plain : KnowsNames m.primitive?) :
    ∀ {type : TypeExpr} {target : TargetType}, type.IsParsed →
      (m.mapType type).outcome = .ok target → m.MapsTo type target
  | .named raw name qualifier, target, read, mapped => by
    rw [mapType] at mapped
    split at mapped
    next known =>
      cases mapped
      exact .builtIn known
    next unknown =>
      split at mapped
      · cases mapped
      · cases mapped
        exact .object unknown
  | .array raw dimensions element, target, read, mapped => by
    have unknown : m.primitive? raw = none := plain.eq_none read (by simp)
    have inner : element.IsParsed := read.operand (List.mem_singleton.mpr rfl)
    simp only [mapType, unknown] at mapped
    split at mapped
    · cases mapped
    · rw [Logged.outcome_bind, bind_ok_iff] at mapped
      obtain ⟨target', inside, made⟩ := mapped
      cases made
      exact .list (mapsTo_of_mapType plain inner inside)
  | .map raw value, target, read, mapped => by
    have unknown : m.primitive? raw = none := plain.eq_none read (by simp)
    simp [mapType, unknown] at mapped
  | .union raw members, target, read, mapped => by
    have unknown : m.primitive? raw = none := plain.eq_none read (by simp)
    have inner : ∀ member ∈ members, member.IsParsed := fun _ listed => read.operand listed
    simp only [mapType, unknown, Logged.outcome_bind, bind_ok_iff] at mapped
    obtain ⟨targets, each, ancestor, typed, made⟩ := mapped
    cases made
    exact .union (mapsTo_of_mapTypes plain inner each) typed

theorem mapsTo_of_mapTypes (plain : KnowsNames m.primitive?) :
    ∀ {types : List TypeExpr} {targets : List TargetType}, (∀ type ∈ types, type.IsParsed) →
      (m.mapTypes types).outcome = .ok targets → List.Forall₂ m.MapsTo types targets
  | [], targets, _, mapped => by
    rw [mapTypes] at mapped
    cases mapped
    exact .nil
  | type :: rest, targets, read, mapped => by
    simp only [mapTypes, Logged.outcome_bind, bind_ok_iff] at mapped
    obtain ⟨target, here, targets', there, made⟩ := mapped
    cases made
    exact .cons (mapsTo_of_mapType plain (read type List.mem_cons_self) here)
      (mapsTo_of_mapTypes plain (fun other listed => read other (List.mem_cons_of_mem _ listed))
        there)

end

/-- A mapping fails for the first part that is refused, and returns if there is none. -/
theorem mapType_ends (typed : m.TypesUnions) (plain : KnowsNames m.primitive?) {type : TypeExpr}
    (read : type.IsParsed) :
    match type.preorder.findSome? TypeExpr.refusal? with
    | some failure => (m.mapType type).outcome = .error (.mapping failure)
    | none => ∃ target, (m.mapType type).outcome = .ok target ∧ m.MapsTo type target := by
  have ends := mapType_endsBy typed type
  rw [← TypeExpr.map_failure_obstacle? plain type read]
  cases obstacle : type.obstacle? m.primitive? with
  | some part =>
    rw [obstacle] at ends
    exact ends
  | none =>
    rw [obstacle] at ends
    obtain ⟨target, mapped⟩ := ends
    exact ⟨target, mapped, mapsTo_of_mapType plain read mapped⟩

end TypeMapper

/-- The mapper of a language for a graph. -/
def Profile.mapper (profile : Profile) (g : TypeGraph) (universal : String) : TypeMapper :=
  ⟨profile.primitive?, g.hierarchy, universal⟩

namespace TypeGraph

variable {g : TypeGraph}

/-- In a graph without cycles, a type text can be mapped exactly if no part of its expression is
refused. A mapping that fails fails for the first such part, and what an expression is mapped to has
its form. The names in it are the last segments of their texts. -/
theorem mapType_supported (acyclic : g.Acyclic) {profile : Profile} (known : profile ∈ Profile.all)
    (universal text : String) :
    ((∃ fault, ((profile.mapper g universal).mapType (.parse text)).outcome = .error fault) ↔
      ∃ part : TypeExpr, part.IsPart (.parse text) ∧ part.refusal?.isSome = true) ∧
    (∀ fault, ((profile.mapper g universal).mapType (.parse text)).outcome = .error fault →
      ∃ failure, (TypeExpr.parse text).preorder.findSome? TypeExpr.refusal? = some failure ∧
        fault = .mapping failure) ∧
    (∀ target, ((profile.mapper g universal).mapType (.parse text)).outcome = .ok target →
      (profile.mapper g universal).MapsTo (.parse text) target) ∧
    ∀ raw name qualifier, TypeExpr.IsPart (.named raw name qualifier) (.parse text) →
      TypeExpr.SplitsAtDot raw qualifier name := by
  have read : (TypeExpr.parse text).IsParsed := ⟨text, rfl⟩
  have plain : KnowsNames (profile.mapper g universal).primitive? := Profile.knowsNames known
  have ends := TypeMapper.mapType_ends (acyclic.typesUnions profile.primitive? universal) plain read
  have segments : ∀ raw name qualifier, TypeExpr.IsPart (.named raw name qualifier) (.parse text) →
      TypeExpr.SplitsAtDot raw qualifier name := fun _ _ _ inside => (read.part inside).splitsAtDot
  -- A mapping has one outcome, so what is claimed of the other one holds for nothing.
  cases refused : (TypeExpr.parse text).preorder.findSome? TypeExpr.refusal? with
  | some failure =>
    simp only [refused] at ends
    obtain ⟨part, listed, given⟩ := List.exists_of_findSome?_eq_some refused
    have inside := TypeExpr.isPart_of_mem_preorder listed
    refine ⟨iff_of_true ⟨_, ends⟩ ⟨part, inside, by simp [given]⟩, ?_, ?_, segments⟩
    · intro fault failed
      cases ends.symm.trans failed
      exact ⟨failure, rfl, rfl⟩
    · intro target mapped
      cases ends.symm.trans mapped
  | none =>
    simp only [refused] at ends
    obtain ⟨target, mapped, form⟩ := ends
    refine ⟨iff_of_false ?_ ?_, ?_, ?_, segments⟩
    · rintro ⟨fault, failed⟩
      cases mapped.symm.trans failed
    · rintro ⟨part, inside, given⟩
      have accepted := List.findSome?_eq_none_iff.mp refused part inside.mem_preorder
      simp [accepted] at given
    · intro fault failed
      cases mapped.symm.trans failed
    · intro target' mapped'
      cases mapped.symm.trans mapped'
      exact form

/-- Of a nested array and a name without a last segment the array is met first, and a list of dogs
and cats is one of pets. -/
theorem mapType_supported_pets :
    petGraph.Acyclic ∧ Profile.java ∈ Profile.all ∧
      ((Profile.java.mapper petGraph "Object").mapType
        (.parse "Dog | (Cat[][])[] | lib.")).outcome =
        .error (.mapping (.unsupported .nestedArray "Cat[][]")) ∧
      ((Profile.java.mapper petGraph "Object").mapType (.parse "(lib.Dog | Cat)[]")).outcome =
        .ok (.listOf (.unionOf "Pet" [.objectRef "Dog", .objectRef "Cat"])) ∧
      (Profile.java.mapper petGraph "Object").MapsTo (.parse "(lib.Dog | Cat)[]")
        (.listOf (.unionOf "Pet" [.objectRef "Dog", .objectRef "Cat"])) := by
  have acyclic := petGraph_acyclic
  have known : Profile.java ∈ Profile.all := by simp [Profile.all]
  have refused : (TypeExpr.parse "Dog | (Cat[][])[] | lib.").preorder.findSome? TypeExpr.refusal? =
      some (.unsupported .nestedArray "Cat[][]") := by
    cbv
  obtain ⟨fails, first, _, _⟩ :=
    mapType_supported acyclic known "Object" "Dog | (Cat[][])[] | lib."
  obtain ⟨_, _, form, _⟩ := mapType_supported acyclic known "Object" "(lib.Dog | Cat)[]"
  obtain ⟨part, listed, given⟩ := List.exists_of_findSome?_eq_some refused
  obtain ⟨fault, failed⟩ := fails.mpr
    ⟨part, TypeExpr.isPart_of_mem_preorder listed, by simp [given]⟩
  obtain ⟨failure, found, rfl⟩ := first fault failed
  cases refused.symm.trans found
  have mapped : ((Profile.java.mapper petGraph "Object").mapType
      (.parse "(lib.Dog | Cat)[]")).outcome =
        .ok (.listOf (.unionOf "Pet" [.objectRef "Dog", .objectRef "Cat"])) := by
    cbv
  exact ⟨acyclic, known, failed, mapped, form _ mapped⟩

end TypeGraph

end RamlTypes
