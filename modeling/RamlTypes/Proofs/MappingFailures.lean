import RamlTypes.Proofs.CommonAncestors

/-!
# Mappings that fail

Whether an expression can be mapped is a matter of its form. The built-in types are looked up first,
by the whole text. Then a map, an array of several dimensions or a name without a last segment is in
the way, and inside an array or a union the first such part is. The hierarchy plays no role, as
unions can always be typed where no chain runs in a circle.
-/
namespace RamlTypes

namespace TypeExpr

/-- No target has maps or arrays of several dimensions. -/
def isUnsupported : TypeExpr → Bool
  | map _ _ => true
  | array _ dimensions _ => 1 < dimensions
  | _ => false

/-- The kind of the warning for a part that is in the way. -/
def warningKind (part : TypeExpr) : WarningKind :=
  if part.isUnsupported = true then .unsupportedConstruct else .fieldMapping

/-- What mapping an expression fails with where the expression itself is in the way. -/
def failure : TypeExpr → MappingFailure
  | array raw _ _ => .unsupported .nestedArray raw
  | map raw _ => .unsupported .map raw
  | expr => .unnamed expr.raw

mutual

/-- The part of an expression that is in the way of its mapping, the first from left to right. -/
def obstacle? (primitive? : String → Option String) : TypeExpr → Option TypeExpr
  | named raw name qualifier =>
      if (primitive? raw).isNone ∧ name = "" then some (named raw name qualifier) else none
  | array raw dimensions element =>
      if (primitive? raw).isSome then none
      else if 1 < dimensions then some (array raw dimensions element)
      else obstacle? primitive? element
  | map raw value => if (primitive? raw).isSome then none else some (map raw value)
  | union raw members =>
      if (primitive? raw).isSome then none else obstacleAmong? primitive? members

def obstacleAmong? (primitive? : String → Option String) : List TypeExpr → Option TypeExpr
  | [] => none
  | expr :: rest => (obstacle? primitive? expr).or (obstacleAmong? primitive? rest)

end

variable {primitive? : String → Option String} {part : TypeExpr}

mutual

/-- The failure of a part that is in the way is of the kind of the part. -/
theorem failure_warningKind : ∀ {type : TypeExpr}, obstacle? primitive? type = some part →
    part.failure.warningKind = part.warningKind
  | .named raw name qualifier, found => by
    rw [obstacle?] at found
    split at found
    · cases found
      rfl
    · cases found
  | .array raw dimensions element, found => by
    rw [obstacle?] at found
    split at found
    · cases found
    · split at found
      next several =>
        cases found
        simp [warningKind, isUnsupported, several, failure, MappingFailure.warningKind]
      · exact failure_warningKind found
  | .map raw value, found => by
    rw [obstacle?] at found
    split at found
    · cases found
    · cases found
      rfl
  | .union raw members, found => by
    rw [obstacle?] at found
    split at found
    · cases found
    · exact failure_warningKind_among found

theorem failure_warningKind_among : ∀ {types : List TypeExpr},
    obstacleAmong? primitive? types = some part → part.failure.warningKind = part.warningKind
  | [], found => by cases found
  | type :: rest, found => by
    rw [obstacleAmong?, Option.or_eq_some_iff] at found
    rcases found with here | ⟨_, later⟩
    · exact failure_warningKind here
    · exact failure_warningKind_among later

end

end TypeExpr

/-! ### How a mapping ends -/

/-- The computation fails for the part that is in the way, and returns if there is none. -/
def EndsBy {α : Type} (obstacle : Option TypeExpr) (x : Except Fault α) : Prop :=
  match obstacle with
  | none => ∃ a, x = .ok a
  | some part => x = .error (.mapping part.failure)

theorem EndsBy.bind {α β : Type} {first second : Option TypeExpr} {x : Except Fault α}
    {f : α → Except Fault β} (ends : EndsBy first x) (next : ∀ a, EndsBy second (f a)) :
    EndsBy (first.or second) (x >>= f) := by
  cases first with
  | none =>
    obtain ⟨a, rfl⟩ := ends
    exact next a
  | some part =>
    rw [ends]
    rfl

/-- Steps that return do not change how a mapping ends. -/
theorem EndsBy.bind_returns {α β : Type} {obstacle : Option TypeExpr} {x : Except Fault α}
    {f : α → Except Fault β} (ends : EndsBy obstacle x) (returns : ∀ a, ∃ b, f a = .ok b) :
    EndsBy obstacle (x >>= f) := by
  have joined : EndsBy (obstacle.or none) (x >>= f) := ends.bind returns
  rwa [Option.or_none] at joined

namespace TypeMapper

variable (m : TypeMapper)

/-- Every union can be typed. -/
def TypesUnions : Prop :=
  ∀ members, ∃ ancestor, (m.hierarchy.commonAncestor m.universal members).outcome = .ok ancestor

variable {m}

mutual

theorem mapType_endsBy (typed : m.TypesUnions) :
    ∀ type : TypeExpr, EndsBy (type.obstacle? m.primitive?) (m.mapType type).outcome
  | .named raw name qualifier => by
    rw [mapType, TypeExpr.obstacle?]
    cases builtIn : m.primitive? raw with
    | some primitive => exact ⟨_, rfl⟩
    | none =>
      by_cases unnamed : name = ""
      · simp [unnamed, EndsBy, TypeExpr.failure, TypeExpr.raw]
      · simp [unnamed, EndsBy]
  | .array raw dimensions element => by
    rw [mapType, TypeExpr.obstacle?]
    cases builtIn : m.primitive? raw with
    | some primitive => exact ⟨_, rfl⟩
    | none =>
      by_cases several : 1 < dimensions
      · simp [several, EndsBy, TypeExpr.failure]
      · simp only [several, Option.isSome_none, Bool.false_eq_true, if_false, Logged.outcome_bind]
        exact (mapType_endsBy typed element).bind_returns fun target => ⟨_, rfl⟩
  | .map raw value => by
    rw [mapType, TypeExpr.obstacle?]
    cases builtIn : m.primitive? raw with
    | some primitive => exact ⟨_, rfl⟩
    | none => rfl
  | .union raw members => by
    rw [mapType, TypeExpr.obstacle?]
    cases builtIn : m.primitive? raw with
    | some primitive => exact ⟨_, rfl⟩
    | none =>
      simp only [Option.isSome_none, Bool.false_eq_true, if_false, Logged.outcome_bind]
      refine (mapTypes_endsBy typed members).bind_returns fun targets => ?_
      obtain ⟨ancestor, found⟩ := typed (members.map (·.memberName))
      exact ⟨.unionOf ancestor targets, by rw [found]; rfl⟩

theorem mapTypes_endsBy (typed : m.TypesUnions) :
    ∀ types : List TypeExpr,
      EndsBy (TypeExpr.obstacleAmong? m.primitive? types) (m.mapTypes types).outcome
  | [] => by
    rw [mapTypes, TypeExpr.obstacleAmong?]
    exact ⟨_, rfl⟩
  | type :: rest => by
    rw [mapTypes, TypeExpr.obstacleAmong?, Logged.outcome_bind]
    refine (mapType_endsBy typed type).bind fun target => ?_
    rw [Logged.outcome_bind]
    exact (mapTypes_endsBy typed rest).bind_returns fun targets => ⟨_, rfl⟩

end

end TypeMapper

/-! ### Mappings without other faults -/

/-- The computation returns, or fails to map a type. -/
def MapsOrFails {α : Type} (x : Except Fault α) : Prop :=
  (∃ a, x = .ok a) ∨ ∃ failure, x = .error (.mapping failure)

theorem EndsBy.mapsOrFails {α : Type} {obstacle : Option TypeExpr} {x : Except Fault α}
    (ends : EndsBy obstacle x) : MapsOrFails x := by
  cases obstacle with
  | none => exact .inl ends
  | some part => exact .inr ⟨_, ends⟩

theorem TypeMapper.mapProperty_mapsOrFails {m : TypeMapper} (typed : m.TypesUnions) (owner : String)
    (p : Property) : MapsOrFails (m.mapProperty owner p).outcome := by
  unfold mapProperty
  split
  · exact .inl ⟨_, rfl⟩
  · exact (mapType_endsBy typed p.type).mapsOrFails

theorem TypeGraph.Acyclic.typesUnions {g : TypeGraph} (acyclic : g.Acyclic)
    (primitive? : String → Option String) (universal : Value) :
    (TypeMapper.mk primitive? g.hierarchy universal).TypesUnions := by
  intro members
  obtain ⟨chains, computed, _⟩ := TypeGraph.exists_ancestorsOf acyclic members.eraseDups
  exact ⟨_, TypeGraph.commonAncestor_outcome universal computed⟩

/-! ### References -/

/-- Unions are typed as a name or as the universal type. -/
theorem Hierarchy.commonAncestor_text_or_universal {h : Hierarchy} {universal ancestor : Value}
    {members : List String}
    (typed : (h.commonAncestor universal members).outcome = .ok ancestor) :
    (∃ name : String, ancestor = .text name) ∨ ancestor = universal := by
  simp only [commonAncestor, Logged.outcome_bind, bind_ok_iff] at typed
  obtain ⟨chains, _, found⟩ := typed
  split at found
  next nearest _ =>
    cases found
    exact .inl ⟨nearest, rfl⟩
  next =>
    split at found
    · cases found
      exact .inr rfl
    · cases found
      exact .inr rfl

theorem Hierarchy.commonAncestor_isText {h : Hierarchy} {universal : String} {members : List String}
    {ancestor : Value} (typed : (h.commonAncestor universal members).outcome = .ok ancestor) :
    ∃ name : String, ancestor = .text name := by
  rcases commonAncestor_text_or_universal typed with named | rfl
  · exact named
  · exact ⟨universal, rfl⟩

/-- What a mapped type refers to is a name, so it can be looked up. -/
theorem TypeMapper.checkReference_of_mapType {primitive? : String → Option String} {h : Hierarchy}
    {universal : String} {type : TypeExpr} {target : TargetType}
    (mapped : ((TypeMapper.mk primitive? h universal).mapType type).outcome = .ok target) :
    target.checkReference = .ok () := by
  cases type with
  | named raw name qualifier =>
    rw [mapType] at mapped
    split at mapped
    · cases mapped
      rfl
    · split at mapped <;> cases mapped
      rfl
  | array raw dimensions element =>
    rw [mapType] at mapped
    split at mapped
    · cases mapped
      rfl
    · split at mapped
      · cases mapped
      · rw [Logged.outcome_bind, bind_ok_iff] at mapped
        obtain ⟨inner, _, made⟩ := mapped
        cases made
        rfl
  | map raw value =>
    rw [mapType] at mapped
    split at mapped
    · cases mapped
      rfl
    · cases mapped
  | union raw members =>
    rw [mapType] at mapped
    split at mapped
    · cases mapped
      rfl
    · simp only [Logged.outcome_bind, bind_ok_iff] at mapped
      obtain ⟨targets, _, ancestor, typed, made⟩ := mapped
      obtain ⟨name, rfl⟩ := Hierarchy.commonAncestor_isText typed
      cases made
      rfl

theorem TypeMapper.checkReference_of_mapProperty {primitive? : String → Option String}
    {h : Hierarchy} {universal owner : String} {p : Property} {target : TargetType}
    (mapped : ((TypeMapper.mk primitive? h universal).mapProperty owner p).outcome = .ok target) :
    target.checkReference = .ok () := by
  unfold mapProperty at mapped
  split at mapped
  · cases mapped
    rfl
  · exact checkReference_of_mapType mapped

end RamlTypes
