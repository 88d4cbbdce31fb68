import RamlTypes.Proofs.ExpressionParts
import RamlTypes.Proofs.Outcomes
import RamlTypes.Resolution

/-!
# What expressions are mapped to

A built-in type is known by the whole text of an expression. Other than that a name is mapped to an
object, an array to a list and a union to a union, and nothing else can be mapped. So each part of a
target type is what some part of the expression is mapped to.
-/
namespace RamlTypes

namespace TargetType

/-- The target types that a target type is built from. -/
def operands : TargetType → List TargetType
  | listOf element => [element]
  | unionOf _ members => members
  | _ => []

/-- One target type is the other, or occurs in it at some depth. -/
inductive IsPart (part : TargetType) : TargetType → Prop where
  | self : IsPart part part
  | within {whole operand : TargetType} (listed : operand ∈ whole.operands)
      (inside : IsPart part operand) : IsPart part whole

theorem isPart_iff {part whole : TargetType} :
    part.IsPart whole ↔ part = whole ∨ ∃ operand ∈ whole.operands, part.IsPart operand := by
  constructor
  · rintro (_ | ⟨listed, inside⟩)
    · exact .inl rfl
    · exact .inr ⟨_, listed, inside⟩
  · rintro (rfl | ⟨operand, listed, inside⟩)
    · exact .self
    · exact .within listed inside

end TargetType

namespace TypeMapper

variable {m : TypeMapper}

theorem mapTypes_outcome (m : TypeMapper) (types : List TypeExpr) :
    (m.mapTypes types).outcome = types.mapM fun type => (m.mapType type).outcome := by
  induction types with
  | nil => simp [mapTypes, pure, Except.pure]
  | cons type rest ih => simp [mapTypes, ih]

/-- All that an expression can be mapped to. -/
theorem mapType_cases {type : TypeExpr} {target : TargetType}
    (mapped : (m.mapType type).outcome = .ok target) :
    (∃ primitive, target = .primitive primitive) ∨
    (∃ raw name qualifier, type = .named raw name qualifier ∧ name ≠ "" ∧
      target = .objectRef name) ∨
    (∃ raw dimensions element target', type = .array raw dimensions element ∧
      (m.mapType element).outcome = .ok target' ∧ target = .listOf target') ∨
    ∃ raw members ancestor targets, type = .union raw members ∧
      members.mapM (fun member => (m.mapType member).outcome) = .ok targets ∧
      (m.hierarchy.commonAncestor m.universal (members.map (·.memberName))).outcome =
        .ok ancestor ∧ target = .unionOf ancestor targets := by
  cases type with
  | named raw name qualifier =>
    rw [mapType] at mapped
    split at mapped
    · cases mapped
      exact .inl ⟨_, rfl⟩
    · split at mapped
      · cases mapped
      next named =>
        cases mapped
        exact .inr (.inl ⟨raw, name, qualifier, rfl, named, rfl⟩)
  | array raw dimensions element =>
    rw [mapType] at mapped
    split at mapped
    · cases mapped
      exact .inl ⟨_, rfl⟩
    · split at mapped
      · cases mapped
      · rw [Logged.outcome_bind, bind_ok_iff] at mapped
        obtain ⟨target', inner, made⟩ := mapped
        cases made
        exact .inr (.inr (.inl ⟨raw, dimensions, element, target', rfl, inner, rfl⟩))
  | map raw value =>
    rw [mapType] at mapped
    split at mapped
    · cases mapped
      exact .inl ⟨_, rfl⟩
    · cases mapped
  | union raw members =>
    rw [mapType] at mapped
    split at mapped
    · cases mapped
      exact .inl ⟨_, rfl⟩
    · simp only [Logged.outcome_bind, bind_ok_iff, mapTypes_outcome] at mapped
      obtain ⟨targets, inner, ancestor, shared, made⟩ := mapped
      cases made
      exact .inr (.inr (.inr ⟨raw, members, ancestor, targets, rfl, inner, shared, rfl⟩))

/-- No type expression stands for an enum. -/
theorem mapType_ne_enumRef (type : TypeExpr) (name : String) :
    (m.mapType type).outcome ≠ .ok (.enumRef name) := by
  intro mapped
  rcases mapType_cases mapped with ⟨_, made⟩ | ⟨_, _, _, _, _, made⟩ | ⟨_, _, _, _, _, _, made⟩ |
    ⟨_, _, _, _, _, _, _, made⟩ <;> cases made

/-- Only a name is mapped to an object, the one of its last segment. -/
theorem eq_named_of_mapType {type : TypeExpr} {name : String}
    (mapped : (m.mapType type).outcome = .ok (.objectRef name)) :
    name ≠ "" ∧ ∃ raw qualifier, type = .named raw name qualifier := by
  rcases mapType_cases mapped with ⟨_, made⟩ | ⟨raw, _, qualifier, rfl, named, made⟩ |
    ⟨_, _, _, _, _, _, made⟩ | ⟨_, _, _, _, _, _, _, made⟩
  · cases made
  · cases made
    exact ⟨named, raw, qualifier, rfl⟩
  · cases made
  · cases made

/-! ### Parts -/

theorem source_of_operand {type : TypeExpr} {target operand : TargetType}
    (mapped : (m.mapType type).outcome = .ok target) (listed : operand ∈ target.operands) :
    ∃ source ∈ type.operands, (m.mapType source).outcome = .ok operand := by
  rcases mapType_cases mapped with ⟨_, rfl⟩ | ⟨_, _, _, _, _, rfl⟩ |
    ⟨_, _, element, _, rfl, inner, rfl⟩ | ⟨_, members, _, targets, rfl, inner, _, rfl⟩
  · cases listed
  · cases listed
  · cases List.mem_singleton.mp listed
    exact ⟨element, List.mem_singleton.mpr rfl, inner⟩
  · exact source_of_mem inner listed

/-- A part of a target type is what a part of the expression is mapped to. -/
theorem source_of_isPart {part target : TargetType} (inside : part.IsPart target) {type : TypeExpr}
    (mapped : (m.mapType type).outcome = .ok target) :
    ∃ source : TypeExpr, source.IsPart type ∧ (m.mapType source).outcome = .ok part := by
  -- Going down into the target type, the expression is gone down into along with it.
  induction inside generalizing type with
  | self => exact ⟨type, .self, mapped⟩
  | within listed _ ih =>
    obtain ⟨operand, listed', mapped'⟩ := source_of_operand mapped listed
    obtain ⟨source, inside', given⟩ := ih mapped'
    exact ⟨source, .within listed' inside', given⟩

/-- No type expression stands for an enum, and none is inside of what it stands for. -/
theorem not_isPart_enumRef {type : TypeExpr} {target : TargetType}
    (mapped : (m.mapType type).outcome = .ok target) (name : String) :
    ¬ TargetType.IsPart (.enumRef name) target := by
  intro inside
  obtain ⟨source, _, mapped'⟩ := source_of_isPart inside mapped
  exact mapType_ne_enumRef source name mapped'

/-! ### Properties -/

theorem mapProperty_plain {p : Property} (plain : p.isEnum = false) (owner : String) :
    m.mapProperty owner p = m.mapType p.type := by
  simp [mapProperty, plain]

theorem mapProperty_enum {p : Property} (enum : p.isEnum = true) (owner : String) :
    m.mapProperty owner p = pure (.enumRef (EnumDef.nameFor owner p.name)) := by
  simp [mapProperty, enum]

/-- An enum is always mapped, and any other property if its type is. -/
theorem exists_mapProperty {p : Property} (owner : String)
    (mapped : p.isEnum = false → ∃ target, (m.mapType p.type).outcome = .ok target) :
    ∃ target, (m.mapProperty owner p).outcome = .ok target := by
  cases enum : p.isEnum with
  | false =>
    rw [mapProperty_plain enum]
    exact mapped enum
  | true => exact ⟨_, by rw [mapProperty_enum enum]; rfl⟩

/-- What can be mapped for one type can be mapped for any other. -/
theorem mapProperty_returns {p : Property} {owner : String} {target : TargetType}
    (mapped : (m.mapProperty owner p).outcome = .ok target) (owner' : String) :
    ∃ target', (m.mapProperty owner' p).outcome = .ok target' :=
  exists_mapProperty owner' fun plain => ⟨target, by rwa [mapProperty_plain plain] at mapped⟩

end TypeMapper

end RamlTypes
