import RamlTypes.Proofs.EnumMembers
import RamlTypes.Proofs.EnumNames
import RamlTypes.Proofs.Losses

/-!
# Enums and the references to them

A field refers to an enum by a name, and the enum stands in a list of the model, made at another
place of the resolution. Both are made for the properties with literals that are resolved for a
class, in the same order, inherited ones included. So the list has for each class its own enum, if
it has one, and then one enum for each field that refers to one; and no reference is hidden inside
of a type.
-/
namespace RamlTypes

def TargetType.isEnumRef : TargetType → Bool
  | enumRef _ => true
  | _ => false

/-- A type that is no reference to an enum has no such reference as a part either. -/
theorem TargetType.isEnumRef_eq_false {type : TargetType}
    (apart : ∀ name, ¬ IsPart (.enumRef name) type) : type.isEnumRef = false := by
  cases type with
  | enumRef name => exact absurd .self (apart name)
  | primitive | listOf | objectRef | unionOf => rfl

/-! ### Members -/

/-- The enum is of the type, and has one member for each literal, in the order of the literals. -/
structure EnumDef.Lists (e : EnumDef) (type : TypeExpr) (literals : List Value) : Prop where
  valueType : e.valueType = type.raw
  members : List.Forall₂
    (fun literal member => Literal.ofValue? literal = some member.value) literals e.members

/-- The enum of a type or a property lists its literals. -/
theorem enumOf_lists {owner propertyName : String} {literals : Option (List Value)}
    {type : TypeExpr} {e : EnumDef}
    (made : (Resolver.enumOf owner propertyName literals type).outcome = .ok (some e)) :
    ∃ values, literals = some values ∧ e.Lists type values := by
  cases literals with
  | none => cases made
  | some values =>
    simp only [Resolver.enumOf, EnumDef.ofLiterals, Logged.outcome_map, Logged.outcome_bind,
      map_ok_iff, bind_ok_iff] at made
    obtain ⟨_, ⟨members, built, given⟩, same⟩ := made
    cases given
    cases same
    exact ⟨values, rfl, rfl, EnumDef.membersFor_literals built⟩

/-! ### Classes -/

namespace TypeGraph

/-- The enum that a field of a class refers to: it belongs to the field, and lists the literals of
the property that the field is made from. -/
structure IsEnumOfField (g : TypeGraph) (c : ResolvedClass) (f : ResolvedField) (e : EnumDef) :
    Prop where
  referred : f.type = .enumRef e.name
  owner : e.owner = c.name
  propertyName : e.propertyName = f.name
  listed : ∃ p literals, g.IsEffective c.name f.name p ∧ p.literals = some literals ∧
    e.Lists p.type literals

/-- The enums of a class: its own one, if it has one, and one for each reference among its fields,
in the order of the fields. -/
structure HasEnums (g : TypeGraph) (c : ResolvedClass) (enums : List EnumDef) : Prop where
  own : ∀ e ∈ c.enum, e.owner = c.name ∧ e.propertyName = "" ∧
    ∃ node literals, g.node? c.name = some node ∧ node.literals = some literals ∧
      e.Lists node.type literals
  split : ∃ inner, enums = c.enum.toList ++ inner ∧
    List.Forall₂ (g.IsEnumOfField c) (c.fields.filter (·.type.isEnumRef)) inner

variable {g : TypeGraph} {primitive? : String → Option String} {config : Config}

/-- Among what is kept, the fields that refer to an enum and the enums that are there belong to each
other one by one. -/
theorem forall₂_enums_of_kept {related : ResolvedField → EnumDef → Prop}
    {kept : List FieldResolution}
    (each : ∀ resolution ∈ kept,
      (∃ e, resolution.enum = some e ∧ resolution.field.type.isEnumRef = true ∧
        related resolution.field e) ∨
      (resolution.enum = none ∧ resolution.field.type.isEnumRef = false)) :
    List.Forall₂ related ((kept.map (·.field)).filter (·.type.isEnumRef))
      (kept.filterMap (·.enum)) := by
  induction kept with
  | nil => exact .nil
  | cons resolution rest ih =>
    have behind := ih fun other member => each other (List.mem_cons_of_mem _ member)
    rcases each resolution List.mem_cons_self with ⟨e, present, refers, here⟩ | ⟨absent, plain⟩
    · rw [List.map_cons, List.filter_cons_of_pos (by exact refers),
        List.filterMap_cons_some present]
      exact .cons here behind
    · rw [List.map_cons, List.filter_cons_of_neg (by simp [plain]),
        List.filterMap_cons_none absent]
      exact behind

/-- What is kept of an effective property refers to the enum that is made for it, or to none. -/
theorem resolveField_enum_cases {r : Resolver} {c : ResolvedClass} {key : String} {p : Property}
    {resolution : FieldResolution} (effective : g.IsEffective c.name key p) (keyed : p.name = key)
    (kept : (r.resolveField c.name p).outcome = .ok (.ok resolution)) :
    (∃ e, resolution.enum = some e ∧ resolution.field.type.isEnumRef = true ∧
      g.IsEnumOfField c resolution.field e) ∨
    (resolution.enum = none ∧ resolution.field.type.isEnumRef = false) := by
  rcases Resolver.resolveField_refers kept with ⟨e, present, typed⟩ | ⟨absent, apart⟩
  · have built := Resolver.resolveField_enum kept
    rw [present] at built
    obtain ⟨owned, labelled, _⟩ := enumOf_ok_some built
    obtain ⟨literals, given, lists⟩ := enumOf_lists built
    have named : resolution.field.name = p.name := (resolveField_kept kept).1
    refine .inl ⟨e, present, by rw [typed]; rfl, typed, owned, labelled.trans named.symm, ?_⟩
    exact ⟨p, literals, by rwa [named, keyed], given, lists⟩
  · exact .inr ⟨absent, TargetType.isEnumRef_eq_false apart⟩

theorem resolveNode_hasEnums (sound : g.WellFormed) {node : TypeNode}
    (found : g.node? node.name = some node) {resolution : ClassResolution}
    (returned : ((Resolver.ofGraph primitive? config g).resolveNode node).outcome =
      .ok resolution) : g.HasEnums resolution.record resolution.enums := by
  obtain ⟨path, enum, _, properties, fields, walked, built, _, visible, resolved, rfl⟩ :=
    Resolver.resolveNode_ok_iff.mp returned
  obtain ⟨properties', visible', effective⟩ :=
    (chain_ok_iff.mp walked).visibleProperties_returns primitive? config
  cases visible.symm.trans visible'
  constructor
  · intro e own
    rw [show enum = some e from own] at built
    obtain ⟨owned, labelled, _⟩ := enumOf_ok_some built
    obtain ⟨literals, given, lists⟩ := enumOf_lists built
    exact ⟨owned, labelled, node, literals, found, given, lists⟩
  · refine ⟨(keptOf fields).filterMap (·.enum), rfl, forall₂_enums_of_kept ?_⟩
    intro resolution listed
    obtain ⟨p, shown, given⟩ := source_of_mem resolved (mem_keptOf.mp listed)
    obtain ⟨key, _, effective⟩ := (effective p).mp shown
    exact resolveField_enum_cases effective (effective.named sound) given

/-! ### Models -/

/-- The type of a field has no reference to an enum inside, and the definition of an alias has none
at all. -/
structure RefersPlainly (c : ResolvedClass) : Prop where
  fields : ∀ f ∈ c.fields, ∀ name, TargetType.IsPart (.enumRef name) f.type → f.type = .enumRef name
  definition : ∀ target, c.definition = some target →
    ∀ name, ¬ TargetType.IsPart (.enumRef name) target

theorem resolveNode_refersPlainly {r : Resolver} {node : TypeNode} {resolution : ClassResolution}
    (returned : (r.resolveNode node).outcome = .ok resolution) :
    RefersPlainly resolution.record := by
  obtain ⟨_, _, definition, _, fields, _, _, aliased, _, resolved, rfl⟩ :=
    Resolver.resolveNode_ok_iff.mp returned
  constructor
  · intro f listed name refers
    obtain ⟨resolution, kept, rfl⟩ := List.mem_map.mp listed
    obtain ⟨p, _, given⟩ := source_of_mem resolved (mem_keptOf.mp kept)
    rcases Resolver.resolveField_refers given with ⟨e, _, typed⟩ | ⟨_, apart⟩
    · rw [typed] at refers ⊢
      cases refers with
      | self => rfl
      | within inner _ => cases inner
    · exact absurd refers (apart name)
  · intro target defined
    obtain ⟨_, mapped⟩ := ((Resolver.resolveAlias_account aliased).1 target).mp defined
    exact TypeMapper.not_isPart_enumRef mapped

/-- The enums of a model are those of its classes, one class after the other, and those of a class
are its own one and one for each of its fields that refers to one. No other reference is in the
model. -/
theorem resolveDocument_enums {profile : Profile} {requested : String} {document : Entries}
    {m : Model} (returned : (resolveDocument profile requested config document).outcome = .ok m) :
    ∃ g, (readGraph document).outcome = .ok g ∧
      (∃ enums : List (List EnumDef), m.enums = enums.flatten ∧
        List.Forall₂ g.HasEnums m.classes enums) ∧
      ∀ c ∈ m.classes, RefersPlainly c := by
  obtain ⟨g, read, resolved⟩ := resolve_of_resolveDocument returned
  have sound := (isBuilt_of_readGraph read).wellFormed
  obtain ⟨_, resolutions, traversed, rfl⟩ := resolve_ok_iff.mp resolved
  have source : ∀ resolution ∈ resolutions, ∃ node, g.node? node.name = some node ∧
      ((Resolver.ofGraph profile.primitive? (effectiveConfig profile requested config)
        g).resolveNode node).outcome = .ok resolution := by
    intro resolution listed
    obtain ⟨name, _, given⟩ := source_of_mem traversed listed
    obtain ⟨node, found, made⟩ := resolveNode_of_resolveClass given
    exact ⟨node, by rwa [sound.keyed.of_node? found], made⟩
  refine ⟨g, read, ⟨resolutions.map (·.enums), ?_, ?_⟩, ?_⟩
  · simp [Resolver.modelOf, List.flatMap_def]
  · refine List.forall₂_map_left_iff.mpr (List.forall₂_map_right_iff.mpr (List.forall₂_same.mpr ?_))
    intro resolution listed
    obtain ⟨node, found, made⟩ := source resolution listed
    exact resolveNode_hasEnums sound found made
  · intro c member
    obtain ⟨resolution, listed, rfl⟩ := List.mem_map.mp member
    obtain ⟨node, _, made⟩ := source resolution listed
    exact resolveNode_refersPlainly made

/-- Parcels have a size and a state, and letters are parcels with a stamp. -/
def parcelDocument : Entries :=
  [(.text "types", .map [
    (.text "Size", .map [(.text "enum", .list [.text "small", .text "large"])]),
    (.text "Parcel", .map [(.text "properties", .map [
      (.text "size", .text "Size"),
      (.text "marks", .text "Mark\x7b\x7d"),
      (.text "state", .map [(.text "enum", .list [.text "sent", .text "lost"])])])]),
    (.text "Letter", .map [
      (.text "type", .text "Parcel"),
      (.text "properties", .map [(.text "stamp", .map [
        (.text "type", .text "integer"), (.text "enum", .list [.scalar (.int 80)])])])])])]

/-- A size is an object for the parcel, and letters have an enum for the state that they inherit. -/
theorem resolveDocument_enums_parcels :
    ∃ m g, (resolveDocument Profile.java "" {} parcelDocument).outcome = .ok m ∧
      m.enums.map (fun e => (e.owner, e.propertyName, e.valueType)) =
        [("Size", "", "string"), ("Parcel", "state", "string"), ("Letter", "state", "string"),
          ("Letter", "stamp", "integer")] ∧
      (readGraph parcelDocument).outcome = .ok g ∧
      (∃ enums : List (List EnumDef), m.enums = enums.flatten ∧
        List.Forall₂ g.HasEnums m.classes enums) ∧
      ∀ c ∈ m.classes, RefersPlainly c := by
  obtain ⟨m, returned, owners⟩ : ∃ m,
      (resolveDocument Profile.java "" {} parcelDocument).outcome = .ok m ∧
        m.enums.map (fun e => (e.owner, e.propertyName, e.valueType)) =
          [("Size", "", "string"), ("Parcel", "state", "string"), ("Letter", "state", "string"),
            ("Letter", "stamp", "integer")] :=
    exists_of_toOption_map (by decide +kernel)
  obtain ⟨g, read, enums, plain⟩ := resolveDocument_enums returned
  exact ⟨m, g, returned, owners, read, enums, plain⟩

end TypeGraph

end RamlTypes
