import RamlTypes.Proofs.ModelContents

/-!
# Where results come from

An enum names the type and the property whose literals it has, and a warning names the type and the
field that was dropped. An empty name of a property or a field stands for the type itself. So what
belongs to a class, or to a field of it, can be found again in the lists of a model.
-/
namespace RamlTypes

theorem enumOf_ok_some {owner propertyName : String} {literals : Option (List Value)}
    {type : TypeExpr} {e : EnumDef}
    (made : (Resolver.enumOf owner propertyName literals type).outcome = .ok (some e)) :
    e.owner = owner ∧ e.propertyName = propertyName ∧
      e.name = EnumDef.nameFor owner propertyName := by
  cases literals with
  | none => cases made
  | some values =>
    simp only [Resolver.enumOf, EnumDef.ofLiterals, Logged.outcome_map, Logged.outcome_bind,
      map_ok_iff, bind_ok_iff] at made
    obtain ⟨_, ⟨_, _, given⟩, same⟩ := made
    cases given
    cases same
    exact ⟨rfl, rfl, rfl⟩

theorem enumOf_isSome {owner propertyName : String} {literals : Option (List Value)}
    {type : TypeExpr} {enum : Option EnumDef}
    (returned : (Resolver.enumOf owner propertyName literals type).outcome = .ok enum) :
    enum.isSome = literals.isSome := by
  cases literals with
  | none =>
    cases returned
    rfl
  | some values =>
    rw [Resolver.enumOf, Logged.outcome_map, map_ok_iff] at returned
    obtain ⟨e, _, rfl⟩ := returned
    rfl

theorem enumOf_origin {owner propertyName : String} {literals : Option (List Value)}
    {type : TypeExpr} {enum : Option EnumDef}
    (returned : (Resolver.enumOf owner propertyName literals type).outcome = .ok enum) :
    ∀ e ∈ enum, e.owner = owner ∧ e.propertyName = propertyName := by
  intro e present
  cases present
  obtain ⟨owned, labelled, _⟩ := enumOf_ok_some returned
  exact ⟨owned, labelled⟩

theorem mappedOrDropped_origin {owner fieldName : String} {x : Logged TargetType}
    {warning : FieldWarning}
    (returned : (x.mappedOrDropped owner fieldName).outcome = .ok (.error warning)) :
    warning.typeName = owner ∧ warning.fieldName = fieldName := by
  rw [mappedOrDropped_outcome] at returned
  -- Only a mapping that fails becomes a warning.
  split at returned
  · cases returned
  · cases returned
    exact ⟨rfl, rfl⟩
  · cases returned

namespace Resolver

variable {r : Resolver} {owner : String}

/-- The result says which property it is for: a field and its enum by their names, and a warning by
the names of the type and the field. -/
inductive IsResultFor (owner : String) (p : Property) :
    Except FieldWarning FieldResolution → Prop where
  | kept {resolution : FieldResolution} (named : resolution.field.name = p.name)
      (origin : ∀ e ∈ resolution.enum, e.owner = owner ∧ e.propertyName = p.name) :
      IsResultFor owner p (.ok resolution)
  | dropped {warning : FieldWarning} (typeName : warning.typeName = owner)
      (fieldName : warning.fieldName = p.name) : IsResultFor owner p (.error warning)

theorem fieldWith_isResultFor {p : Property} {target : TargetType} {resolution : FieldResolution}
    (returned : (r.fieldWith owner p target).outcome = .ok resolution) :
    IsResultFor owner p (.ok resolution) := by
  obtain ⟨enum, isMember, built, _, _, rfl⟩ := fieldWith_ok_iff.mp returned
  exact .kept rfl (enumOf_origin built)

theorem resolveField_isResultFor {p : Property} {result : Except FieldWarning FieldResolution}
    (returned : (r.resolveField owner p).outcome = .ok result) : IsResultFor owner p result := by
  rw [resolveField, Logged.outcome_bind, bind_ok_iff] at returned
  obtain ⟨mapped, tried, rest⟩ := returned
  cases mapped with
  | error warning =>
    cases rest
    obtain ⟨typeName, fieldName⟩ := mappedOrDropped_origin tried
    exact .dropped typeName fieldName
  | ok target =>
    rw [Logged.outcome_map, map_ok_iff] at rest
    obtain ⟨resolution, filled, rfl⟩ := rest
    exact fieldWith_isResultFor filled

/-- The definition of an alias is dropped with a warning for the type itself. -/
theorem resolveAlias_origin {node : TypeNode}
    {definition : Option (Except FieldWarning TargetType)}
    (returned : (r.resolveAlias node).outcome = .ok definition) :
    ∀ warning ∈ droppedOf definition.toList,
      warning.typeName = node.name ∧ warning.fieldName = "" := by
  intro warning member
  unfold resolveAlias at returned
  split at returned
  · rw [Logged.outcome_map, map_ok_iff] at returned
    obtain ⟨result, tried, rfl⟩ := returned
    cases result with
    | ok target => simp [droppedOf] at member
    | error warning' =>
      cases List.mem_singleton.mp member
      exact mappedOrDropped_origin tried
  · cases returned
    simp [droppedOf] at member

end Resolver

theorem mem_droppedOf {α : Type} {results : List (Except FieldWarning α)}
    {warning : FieldWarning} : warning ∈ droppedOf results ↔ .error warning ∈ results := by
  rw [droppedOf, List.mem_filterMap]
  constructor
  · rintro ⟨_ | kept, member, same⟩
    · cases same
      exact member
    · cases same
  · exact fun member => ⟨_, member, rfl⟩

/-- The enums and warnings of the class are those of its type. -/
structure ClassResolution.IsLabelled (c : ClassResolution) : Prop where
  enums : ∀ e ∈ c.enums, e.owner = c.record.name
  warnings : ∀ warning ∈ c.warnings, warning.typeName = c.record.name

theorem Resolver.resolveNode_isLabelled {r : Resolver} {node : TypeNode}
    {resolution : ClassResolution} (returned : (r.resolveNode node).outcome = .ok resolution) :
    resolution.IsLabelled := by
  obtain ⟨chain, enum, definition, properties, fields, _, built, aliased, _, resolved, rfl⟩ :=
    resolveNode_ok_iff.mp returned
  constructor
  · intro e member
    -- An enum is the one of the type itself, or of a field that was kept.
    rcases List.mem_append.mp member with own | inner
    · exact (enumOf_origin built e (Option.mem_toList.mp own)).1
    · obtain ⟨resolution, kept, present⟩ := List.mem_filterMap.mp inner
      obtain ⟨p, _, given⟩ := source_of_mem resolved (mem_keptOf.mp kept)
      cases resolveField_isResultFor given with
      | kept _ origin => exact (origin e present).1
  · intro warning member
    -- A warning is for the definition of the type, or for a field that was dropped.
    rcases List.mem_append.mp member with own | inner
    · exact (resolveAlias_origin aliased warning own).1
    · obtain ⟨p, _, given⟩ := source_of_mem resolved (mem_droppedOf.mp inner)
      cases resolveField_isResultFor given with
      | dropped typeName _ => exact typeName

end RamlTypes
