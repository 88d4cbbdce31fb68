import RamlTypes.Proofs.ParallelRuns
import RamlTypes.Proofs.ReferencedNames

/-!
# Target languages

A target language brings the spelling of the built-in types, and types are looked up among them by
their whole text before anything else is looked at. The texts that are found are plain names,
though: no such text is an array, a map or a union, or fails to name anything. So a type that is
built in for one language is an object of its name for another one, and nothing else depends on the
language.
-/
namespace RamlTypes

/-- Only plain names are looked up with success. -/
def KnowsNames (primitive? : String → Option String) : Prop :=
  ∀ key target, primitive? key = some target → TypeExpr.IsTypeName key.toList

theorem Profile.knowsNames {profile : Profile} (known : profile ∈ all) :
    KnowsNames profile.primitive? := by
  have plain : ∀ profile ∈ all, ∀ entry ∈ profile.primitives,
      TypeExpr.IsTypeName entry.1.toList := by
    decide
  intro key target builtIn
  obtain ⟨before, after, split, _⟩ := List.lookup_eq_some_iff.mp builtIn
  exact plain profile known (key, target) (by simp [split])

section KnowsNames

variable {primitive? : String → Option String} {target : String}

/-- A type that is built in is the name that it is looked up by. -/
theorem KnowsNames.eq_named (plain : KnowsNames primitive?) {type : TypeExpr}
    (read : type.IsParsed) (builtIn : primitive? type.raw = some target) :
    type = .named type.raw type.raw "" := by
  obtain ⟨text, rfl⟩ := read
  have again := TypeExpr.parse_raw text
  rw [TypeExpr.parse, (plain _ _ builtIn).parseChars_eq, String.ofList_toList] at again
  exact again.symm

theorem KnowsNames.name_eq (plain : KnowsNames primitive?) {raw name qualifier : String}
    (read : (TypeExpr.named raw name qualifier).IsParsed)
    (builtIn : primitive? raw = some target) : name = raw ∧ name ≠ "" := by
  obtain ⟨-, same, -⟩ := TypeExpr.named.inj (plain.eq_named read builtIn)
  subst same
  exact ⟨rfl, by simpa using (plain _ _ builtIn).ne_empty⟩

/-- An array, a map or a union is never built in. -/
theorem KnowsNames.eq_none (plain : KnowsNames primitive?) {type : TypeExpr}
    (read : type.IsParsed) (compound : ∀ raw name qualifier, type ≠ .named raw name qualifier) :
    primitive? type.raw = none := by
  cases builtIn : primitive? type.raw with
  | none => rfl
  | some target => exact absurd (plain.eq_named read builtIn) (compound _ _ _)

end KnowsNames

/-- Types of the same form with the same names. At a leaf, a type that is built in for one of the
languages may be built in for the other one under another name, or be an object. -/
inductive TargetType.Respelled (primitive? primitive?' : String → Option String) :
    TargetType → TargetType → Prop where
  | builtIn {key a b : String} (here : primitive? key = some a) (there : primitive?' key = some b) :
      Respelled primitive? primitive?' (.primitive a) (.primitive b)
  | builtInHere {name a : String} (here : primitive? name = some a)
      (there : primitive?' name = none) :
      Respelled primitive? primitive?' (.primitive a) (.objectRef name)
  | builtInThere {name b : String} (here : primitive? name = none)
      (there : primitive?' name = some b) :
      Respelled primitive? primitive?' (.objectRef name) (.primitive b)
  | objectRef (name : String) : Respelled primitive? primitive?' (.objectRef name) (.objectRef name)
  | enumRef (name : String) : Respelled primitive? primitive?' (.enumRef name) (.enumRef name)
  | listOf {element element' : TargetType}
      (inside : Respelled primitive? primitive?' element element') :
      Respelled primitive? primitive?' (.listOf element) (.listOf element')
  | unionOf (commonAncestor : Value) {members members' : List TargetType}
      (each : List.Forall₂ (Respelled primitive? primitive?') members members') :
      Respelled primitive? primitive?' (.unionOf commonAncestor members)
        (.unionOf commonAncestor members')

variable {primitive? primitive?' : String → Option String}

/-! ### Mappings -/

namespace TypeMapper

variable {h : Hierarchy} {universal : String}

mutual

/-- Two languages fail for the same part of an expression, or give it the same form. -/
theorem mapType_respelled (plain : KnowsNames primitive?) (plain' : KnowsNames primitive?') :
    ∀ type : TypeExpr, type.IsParsed →
      Alike (TargetType.Respelled primitive? primitive?')
        ((TypeMapper.mk primitive? h universal).mapType type).outcome
        ((TypeMapper.mk primitive?' h universal).mapType type).outcome
  | .named raw name qualifier, read => by
    cases here : primitive? raw with
    | some a =>
      obtain ⟨rfl, nonempty⟩ := plain.name_eq read here
      cases there : primitive?' name with
      | some b =>
        simp only [mapType, here, there]
        exact .returned (.builtIn here there)
      | none =>
        simp only [mapType, here, there, if_neg nonempty]
        exact .returned (.builtInHere here there)
    | none =>
      cases there : primitive?' raw with
      | some b =>
        obtain ⟨rfl, nonempty⟩ := plain'.name_eq read there
        simp only [mapType, here, there, if_neg nonempty]
        exact .returned (.builtInThere here there)
      | none =>
        simp only [mapType, here, there]
        split
        · exact .failed _
        · exact .returned (.objectRef name)
  | .array raw dimensions element, read => by
    have here : primitive? raw = none := plain.eq_none read (by simp)
    have there : primitive?' raw = none := plain'.eq_none read (by simp)
    simp only [mapType, here, there]
    split
    · exact .failed _
    · rw [Logged.outcome_bind, Logged.outcome_bind]
      have inner : element.IsParsed := read.operand (List.mem_singleton.mpr rfl)
      exact (mapType_respelled plain plain' element inner).bind
        fun _ _ inside => .returned (.listOf inside)
  | .map raw value, read => by
    have here : primitive? raw = none := plain.eq_none read (by simp)
    have there : primitive?' raw = none := plain'.eq_none read (by simp)
    simp only [mapType, here, there]
    exact .failed _
  | .union raw members, read => by
    have here : primitive? raw = none := plain.eq_none read (by simp)
    have there : primitive?' raw = none := plain'.eq_none read (by simp)
    simp only [mapType, here, there, Logged.outcome_bind]
    have inner : ∀ member ∈ members, member.IsParsed := fun _ listed => read.operand listed
    -- The common ancestor is found by the names of the members alone.
    exact (mapTypes_respelled plain plain' members inner).bind fun _ _ each =>
      Alike.bind_same fun ancestor _ => .returned (.unionOf ancestor each)

theorem mapTypes_respelled (plain : KnowsNames primitive?) (plain' : KnowsNames primitive?') :
    ∀ types : List TypeExpr, (∀ type ∈ types, type.IsParsed) →
      Alike (List.Forall₂ (TargetType.Respelled primitive? primitive?'))
        ((TypeMapper.mk primitive? h universal).mapTypes types).outcome
        ((TypeMapper.mk primitive?' h universal).mapTypes types).outcome
  | [], _ => by
    rw [mapTypes, mapTypes]
    exact .returned .nil
  | type :: rest, read => by
    rw [mapTypes, mapTypes, Logged.outcome_bind, Logged.outcome_bind]
    refine (mapType_respelled plain plain' type (read type List.mem_cons_self)).bind ?_
    intro target target' here
    rw [Logged.outcome_bind, Logged.outcome_bind]
    exact (mapTypes_respelled plain plain' rest
      fun other listed => read other (List.mem_cons_of_mem _ listed)).bind
        fun _ _ there => .returned (.cons here there)

end

end TypeMapper

/-! ### Fields -/

/-- A declared name is looked up as a built-in type. -/
def TypeGraph.Shadows (g : TypeGraph) (primitive? : String → Option String) : Prop :=
  ∃ name, g.isDeclared name = true ∧ (primitive? name).isSome = true

namespace TargetType.Respelled

variable {target target' : TargetType}

theorem unionMembers_eq (same : Respelled primitive? primitive?' target target') (p : Property) :
    Resolver.unionMembers p target' = Resolver.unionMembers p target := by
  cases same with
  | unionOf ancestor each =>
    unfold Resolver.unionMembers
    cases p.type <;> rfl
  | _ => rfl

/-- Where no declared type is built in, both types stand for the same declared type. -/
theorem node?_eq {g : TypeGraph} (same : Respelled primitive? primitive?' target target')
    (apart : ¬ g.Shadows primitive?) (apart' : ¬ g.Shadows primitive?') :
    target'.referenced?.bind g.node? = target.referenced?.bind g.node? := by
  have absent {known : String → Option String} {name target : String} (apart : ¬ g.Shadows known)
      (builtIn : known name = some target) : g.node? name = none := by
    cases found : g.node? name with
    | none => rfl
    | some node =>
      have declared : g.isDeclared name = true :=
        (Table.contains_iff _ _).mpr (Table.mem_keys_of_find? found)
      exact absurd ⟨name, declared, by simp [builtIn]⟩ apart
  cases same with
  | builtInHere here _ => exact absent apart here
  | builtInThere _ there => exact (absent apart' there).symm
  | unionOf ancestor _ => cases ancestor with
    | scalar s => cases s <;> rfl
    | _ => rfl
  | _ => rfl

end TargetType.Respelled

/-- The fields differ in their types, and in what a use requires of a type that only one of the
languages has built in. -/
structure ResolvedField.Respelled (g : TypeGraph) (primitive? primitive?' : String → Option String)
    (f f' : ResolvedField) : Prop where
  same : f' = { f with type := f'.type, requiredOverrides := f'.requiredOverrides }
  type : TargetType.Respelled primitive? primitive?' f.type f'.type
  requiredOverrides : ¬ g.Shadows primitive? → ¬ g.Shadows primitive?' →
    f'.requiredOverrides = f.requiredOverrides

/-- The classes differ in the types of their fields and in their definitions. -/
structure ResolvedClass.Respelled (g : TypeGraph) (primitive? primitive?' : String → Option String)
    (c c' : ResolvedClass) : Prop where
  same : c' = { c with fields := c'.fields, definition := c'.definition }
  fields : List.Forall₂ (ResolvedField.Respelled g primitive? primitive?') c.fields c'.fields
  definition : Option.Rel (TargetType.Respelled primitive? primitive?') c.definition c'.definition

/-- The models differ in the classes, which are the same up to the spelling of built-in types. -/
structure Model.Respelled (g : TypeGraph) (primitive? primitive?' : String → Option String)
    (m m' : Model) : Prop where
  same : m' = { m with backend := m'.backend, classes := m'.classes }
  classes : List.Forall₂ (ResolvedClass.Respelled g primitive? primitive?') m.classes m'.classes

namespace TypeGraph

variable {g : TypeGraph} {config : Config}

theorem parallel_of_parsed (parsed : g.Parsed) (config : Config) (plain : KnowsNames primitive?)
    (plain' : KnowsNames primitive?') :
    Resolver.Parallel (TargetType.Respelled primitive? primitive?')
      (Resolver.ofGraph primitive? config g) (Resolver.ofGraph primitive?' config g) where
  hierarchy := rfl
  ignoreClasses := rfl
  ignoresField := rfl
  orderClasses := rfl
  usage := rfl
  enumRef := .enumRef
  checkReference _ _ same := by cases same <;> rfl
  mapType type present := TypeMapper.mapType_respelled plain plain' type (parsed type present)

theorem respelled_of_fieldsAlike {f f' : ResolvedField}
    (alike : Resolver.FieldsAlike (TargetType.Respelled primitive? primitive?')
      (Resolver.ofGraph primitive? config g) (Resolver.ofGraph primitive?' config g) f f') :
    ResolvedField.Respelled g primitive? primitive?' f f' := by
  obtain ⟨p, isMember, mapped⟩ := alike
  refine ⟨?_, mapped, fun apart apart' => ?_⟩
  · simp only [Resolver.fieldOf, mapped.unionMembers_eq p]
  · simp only [Resolver.fieldOf, Resolver.graph, Resolver.ofGraph, Resolver.withOptions, hierarchy,
      requiredOverrides, mapped.node?_eq apart apart']

theorem respelled_of_classesAlike {c c' : ResolvedClass}
    (alike : Resolver.ClassesAlike (TargetType.Respelled primitive? primitive?')
      (Resolver.ofGraph primitive? config g) (Resolver.ofGraph primitive?' config g) c c') :
    ResolvedClass.Respelled g primitive? primitive?' c c' := by
  have same := alike.same
  rw [alike.deserializerTarget_eq rfl] at same
  exact ⟨same, alike.fields.imp fun _ _ => respelled_of_fieldsAlike, alike.definition⟩

theorem respelled_of_modelsAlike {m m' : Model}
    (alike : Resolver.ModelsAlike (TargetType.Respelled primitive? primitive?')
      (Resolver.ofGraph primitive? config g) (Resolver.ofGraph primitive?' config g) m m') :
    Model.Respelled g primitive? primitive?' m m' := by
  refine ⟨?_, alike.classes.imp fun _ _ => respelled_of_classesAlike⟩
  have same := alike.same
  rwa [alike.deserializers_eq rfl] at same

/-- The supported languages end a resolution alike. They reject a graph for the same fault, or give
models that are the same up to the spelling of built-in types. -/
theorem resolve_languages (parsed : g.Parsed) (config : Config) {left right : Profile}
    (known : left ∈ Profile.all) (known' : right ∈ Profile.all) :
    Alike (Model.Respelled g left.primitive? right.primitive?)
      ((Resolver.ofGraph left.primitive? config g).resolve left.language).outcome
      ((Resolver.ofGraph right.primitive? config g).resolve right.language).outcome := by
  have parallel := parallel_of_parsed parsed config (Profile.knowsNames known)
    (Profile.knowsNames known')
  exact (parallel.resolve left.language right.language).imp
    fun _ _ => respelled_of_modelsAlike

/-- The properties of events: a day, an identifier, and persons or numbers. -/
def eventProperties : Table String Property :=
  ⟨[("day", ⟨"day", .named "date-only" "date-only" "", true, [], none, ""⟩),
    ("id", ⟨"id", .named "UUID" "UUID" "", true, [], none, ""⟩),
    ("guests", ⟨"guests", .array "(Person | integer)[]" 1 (.union "Person | integer"
      [.named "Person" "Person" "", .named "integer" "integer" ""]), true, [], none, ""⟩)],
    by simp⟩

def eventGraph : TypeGraph where
  title := ""
  nodes := ⟨[("Event", objectNode "Event" none eventProperties)], by simp⟩
  resources := []

theorem eventGraph_parsed : eventGraph.Parsed := by
  have read : ∀ entry ∈ eventProperties.entries, entry.2.type.IsParsed := by
    simp only [eventProperties, List.forall_mem_cons]
    exact ⟨⟨"date-only", by cbv⟩, ⟨"UUID", by cbv⟩, ⟨"(Person | integer)[]", by cbv⟩, by simp⟩
  intro type present
  cases present with
  | node found =>
    cases List.mem_singleton.mp found
    exact ⟨"object", by cbv⟩
  | property found declared =>
    cases List.mem_singleton.mp found
    exact read _ declared

/-- A day is an object for one of the languages, and an identifier for the other one. -/
theorem resolve_languages_events :
    ∃ m m', eventGraph.Parsed ∧ Profile.java ∈ Profile.all ∧ Profile.python ∈ Profile.all ∧
      ((Resolver.ofGraph Profile.java.primitive? {} eventGraph).resolve "java").outcome = .ok m ∧
      ((Resolver.ofGraph Profile.python.primitive? {} eventGraph).resolve "python").outcome =
        .ok m' ∧
      m.classes.flatMap (fun c => c.fields.map (·.type)) =
        [.objectRef "date-only", .primitive "UUID",
          .listOf (.unionOf "Object" [.objectRef "Person", .primitive "Integer"])] ∧
      m'.classes.flatMap (fun c => c.fields.map (·.type)) =
        [.primitive "date", .objectRef "UUID",
          .listOf (.unionOf "Object" [.objectRef "Person", .primitive "int"])] ∧
      Model.Respelled eventGraph Profile.java.primitive? Profile.python.primitive? m m' := by
  have parsed := eventGraph_parsed
  have java : Profile.java ∈ Profile.all := by simp [Profile.all]
  have python : Profile.python ∈ Profile.all := by simp [Profile.all]
  obtain ⟨m, m', returned, returned', types, types'⟩ : ∃ m m',
      ((Resolver.ofGraph Profile.java.primitive? {} eventGraph).resolve "java").outcome = .ok m ∧
      ((Resolver.ofGraph Profile.python.primitive? {} eventGraph).resolve "python").outcome =
        .ok m' ∧
      m.classes.flatMap (fun c => c.fields.map (·.type)) =
        [.objectRef "date-only", .primitive "UUID",
          .listOf (.unionOf "Object" [.objectRef "Person", .primitive "Integer"])] ∧
      m'.classes.flatMap (fun c => c.fields.map (·.type)) =
        [.primitive "date", .objectRef "UUID",
          .listOf (.unionOf "Object" [.objectRef "Person", .primitive "int"])] :=
    ⟨_, _, by cbv, by cbv, rfl, rfl⟩
  have ends : Alike _ _ _ := resolve_languages parsed {} java python
  refine ⟨m, m', parsed, java, python, returned, returned', types, types', ?_⟩
  simp only [Profile.java, Profile.python] at ends returned returned'
  rw [returned, returned'] at ends
  cases ends with
  | returned same => exact same

end TypeGraph

end RamlTypes
