import RamlTypes.Proofs.MappedTypes
import RamlTypes.Proofs.Origins

/-!
# Names of enums

An enum is named by its type and its property, both in title case and with nothing between them. A
type or property has one enum at most, and a field refers to the one that it has itself. The border
in the middle of a name is lost, though: what one enum has at the end of the name of its type may
stand in front of the property in another. Two enums share a name in this case and in no other, so a
reference can mean an enum of another type.
-/
namespace RamlTypes

theorem Text.append_eq_append_iff {a b c d : String} :
    a ++ b = c ++ d ↔ (∃ t, c = a ++ t ∧ b = t ++ d) ∨ ∃ t, a = c ++ t ∧ d = t ++ b := by
  -- The text in between is found as a list of characters.
  have onto : Function.Surjective String.toList := fun cs => ⟨.ofList cs, String.toList_ofList⟩
  simp only [← String.toList_inj, String.toList_append, List.append_eq_append_iff]
  rw [onto.exists, onto.exists]

namespace EnumDef

/-- The first owner reads on in its property as the second owner does: the title of the second has
something more, and the title of the first property begins with it. -/
def ReadsOn (owner propertyName owner' propertyName' : String) : Prop :=
  ∃ between, Text.titleCase owner' = Text.titleCase owner ++ between ∧
    Text.titleCase propertyName = between ++ Text.titleCase propertyName'

/-- The titles are the same text, whether or not they are cut at the same place. -/
def SharesName (owner propertyName owner' propertyName' : String) : Prop :=
  ReadsOn owner propertyName owner' propertyName' ∨
    ReadsOn owner' propertyName' owner propertyName

theorem nameFor_eq_iff {owner propertyName owner' propertyName' : String} :
    nameFor owner propertyName = nameFor owner' propertyName' ↔
      SharesName owner propertyName owner' propertyName' :=
  Text.append_eq_append_iff

/-- With the same property, only the titles of the owners decide. -/
theorem sharesName_owners_iff {owner owner' propertyName : String} :
    SharesName owner propertyName owner' propertyName ↔
      Text.titleCase owner = Text.titleCase owner' := by
  rw [← nameFor_eq_iff, nameFor, nameFor, String.append_left_inj]

end EnumDef

/-! ### Origins -/

theorem Resolver.resolveField_enum {r : Resolver} {owner : String} {p : Property}
    {resolution : FieldResolution}
    (kept : (r.resolveField owner p).outcome = .ok (.ok resolution)) :
    (enumOf owner p.name p.literals p.type).outcome = .ok resolution.enum := by
  obtain ⟨_, _, filled⟩ := resolveField_ok_iff.mp kept
  obtain ⟨enum, _, built, _, _, rfl⟩ := fieldWith_ok_iff.mp filled
  exact built

/-- What is kept of a property with literals refers to the enum that is made of them, and what is
kept of another one has no enum and refers to none. -/
theorem Resolver.resolveField_refers {r : Resolver} {owner : String} {p : Property}
    {resolution : FieldResolution}
    (kept : (r.resolveField owner p).outcome = .ok (.ok resolution)) :
    (∃ e, resolution.enum = some e ∧ resolution.field.type = .enumRef e.name) ∨
    (resolution.enum = none ∧
      ∀ name, ¬ TargetType.IsPart (.enumRef name) resolution.field.type) := by
  obtain ⟨_, mapped, _⟩ := TypeGraph.resolveField_kept kept
  have built := resolveField_enum kept
  have present : resolution.enum.isSome = p.isEnum := enumOf_isSome built
  cases literal : p.isEnum with
  | false =>
    rw [TypeMapper.mapProperty_plain literal] at mapped
    rw [literal] at present
    exact .inr ⟨by simpa using present, TypeMapper.not_isPart_enumRef mapped⟩
  | true =>
    rw [TypeMapper.mapProperty_enum literal] at mapped
    obtain ⟨e, made⟩ := Option.isSome_iff_exists.mp (present.trans literal)
    rw [made] at built
    obtain ⟨_, _, named⟩ := enumOf_ok_some built
    exact .inl ⟨e, made, by rw [named, ← Except.ok.inj mapped]⟩

theorem Resolver.resolveField_enumRef {r : Resolver} {owner name : String} {p : Property}
    {resolution : FieldResolution}
    (kept : (r.resolveField owner p).outcome = .ok (.ok resolution))
    (refers : TargetType.IsPart (.enumRef name) resolution.field.type) :
    ∃ e ∈ resolution.enum, e.owner = owner ∧ e.propertyName = p.name ∧ e.name = name := by
  rcases resolveField_refers kept with ⟨e, present, typed⟩ | ⟨_, apart⟩
  · obtain ⟨owned, labelled⟩ := enumOf_origin (resolveField_enum kept) e present
    rw [typed] at refers
    cases refers with
    | self => exact ⟨e, present, owned, labelled, rfl⟩
    | within listed _ => cases listed
  · exact absurd refers (apart name)

namespace TypeGraph

variable {g : TypeGraph}

/-- The enum is the one of a type of the graph, or of an effective property of it. -/
inductive IsEnumOf (g : TypeGraph) (e : EnumDef) : Prop where
  | type {node : TypeNode} (found : g.node? e.owner = some node) (unnamed : e.propertyName = "")
      (made : (Resolver.enumOf e.owner "" node.literals node.type).outcome = .ok (some e))
  | property {p : Property} (effective : g.IsEffective e.owner e.propertyName p)
      (made : (Resolver.enumOf e.owner e.propertyName p.literals p.type).outcome = .ok (some e))

theorem IsEnumOf.named {e : EnumDef} (origin : g.IsEnumOf e) :
    e.name = EnumDef.nameFor e.owner e.propertyName := by
  cases origin with
  | type _ unnamed made =>
    obtain ⟨_, _, named⟩ := enumOf_ok_some made
    rw [named, unnamed]
  | property _ made =>
    obtain ⟨_, _, named⟩ := enumOf_ok_some made
    exact named

/-- A property has no other enum. -/
theorem IsEnumOf.unique {e e' : EnumDef} (origin : g.IsEnumOf e) (origin' : g.IsEnumOf e')
    (named : e.propertyName ≠ "") (owner : e.owner = e'.owner)
    (property : e.propertyName = e'.propertyName) : e = e' := by
  cases origin with
  | type _ unnamed _ => exact absurd unnamed named
  | property effective made =>
    cases origin' with
    | type _ unnamed _ => exact absurd (property.trans unnamed) named
    | property effective' made' =>
      rw [← owner, ← property] at effective' made'
      -- A type has one effective property under a name, and the enum is computed from it.
      cases effective.unique effective'
      exact Option.some.inj (Except.ok.inj (made.symm.trans made'))

variable {primitive? : String → Option String} {config : Config} {m : Model} {backend : String}

theorem resolveNode_isEnumOf (sound : g.WellFormed) {node : TypeNode}
    (found : g.node? node.name = some node) {resolution : ClassResolution}
    (returned : ((Resolver.ofGraph primitive? config g).resolveNode node).outcome = .ok resolution)
    {e : EnumDef} (member : e ∈ resolution.enums) : g.IsEnumOf e := by
  obtain ⟨path, enum, _, properties, fields, walked, built, _, visible, resolved, rfl⟩ :=
    Resolver.resolveNode_ok_iff.mp returned
  rcases List.mem_append.mp member with own | inner
  · rw [Option.mem_toList.mp own] at built
    obtain ⟨owned, labelled, _⟩ := enumOf_ok_some built
    rw [← owned] at found built
    exact .type found labelled built
  · obtain ⟨kept, listed, present⟩ := List.mem_filterMap.mp inner
    obtain ⟨p, listed', given⟩ := source_of_mem resolved (mem_keptOf.mp listed)
    -- The properties that are resolved are the effective ones, each under its own name.
    obtain ⟨properties', visible', effective⟩ :=
      (chain_ok_iff.mp walked).visibleProperties_returns primitive? config
    cases visible.symm.trans visible'
    obtain ⟨key, _, effective⟩ := (effective p).mp listed'
    have built := Resolver.resolveField_enum given
    rw [present] at built
    obtain ⟨owned, labelled, _⟩ := enumOf_ok_some built
    rw [← effective.named sound, ← owned, ← labelled] at effective
    rw [← owned, ← labelled] at built
    exact .property effective built

theorem isEnumOf_of_mem_enums (sound : g.WellFormed)
    (returned : ((Resolver.ofGraph primitive? config g).resolve backend).outcome = .ok m)
    {e : EnumDef} (member : e ∈ m.enums) : g.IsEnumOf e := by
  obtain ⟨_, resolutions, resolved, rfl⟩ := resolve_ok_iff.mp returned
  obtain ⟨resolution, listed, inside⟩ := List.mem_flatMap.mp member
  obtain ⟨name, _, given⟩ := source_of_mem resolved listed
  obtain ⟨node, found, made⟩ := resolveNode_of_resolveClass given
  rw [← sound.keyed.of_node? found] at found
  exact resolveNode_isEnumOf sound found made inside

/-! ### References -/

theorem exists_enum_of_field
    (returned : ((Resolver.ofGraph primitive? config g).resolve backend).outcome = .ok m)
    {c : ResolvedClass} (member : c ∈ m.classes) {f : ResolvedField} (field : f ∈ c.fields)
    {name : String} (refers : TargetType.IsPart (.enumRef name) f.type) :
    ∃ e ∈ m.enums, e.owner = c.name ∧ e.propertyName = f.name ∧ e.name = name := by
  obtain ⟨_, resolutions, resolved, rfl⟩ := resolve_ok_iff.mp returned
  obtain ⟨resolution, listed, rfl⟩ := List.mem_map.mp member
  obtain ⟨_, _, given⟩ := source_of_mem resolved listed
  obtain ⟨node, _, made⟩ := resolveNode_of_resolveClass given
  obtain ⟨_, _, _, _, _, _, _, _, _, traversed, rfl⟩ := Resolver.resolveNode_ok_iff.mp made
  obtain ⟨kept, found, rfl⟩ := List.mem_map.mp field
  obtain ⟨p, _, given⟩ := source_of_mem traversed (mem_keptOf.mp found)
  obtain ⟨e, present, owned, labelled, named⟩ := Resolver.resolveField_enumRef given refers
  -- What the field has stands among the enums of its class, and these among those of the model.
  refine ⟨e, List.mem_flatMap.mpr ⟨_, listed, ?_⟩, owned, ?_, named⟩
  · exact List.mem_append_right _ (List.mem_filterMap.mpr ⟨kept, found, present⟩)
  · rw [labelled, (resolveField_kept given).1]

/-- Enums share a name exactly if their titles are the same text. A property has one enum, and a
reference is meant for the one of its own field. -/
theorem resolveDocument_enumNames {profile : Profile} {requested : String} {document : Entries}
    (returned : (resolveDocument profile requested config document).outcome = .ok m) :
    (∀ e ∈ m.enums, ∀ e' ∈ m.enums,
      e.name = e'.name ↔ EnumDef.SharesName e.owner e.propertyName e'.owner e'.propertyName) ∧
    (∀ e ∈ m.enums, ∀ e' ∈ m.enums, e.propertyName ≠ "" → e.owner = e'.owner →
      e.propertyName = e'.propertyName → e = e') ∧
    ∀ c ∈ m.classes, ∀ f ∈ c.fields, ∀ name, TargetType.IsPart (.enumRef name) f.type →
      ∃ e ∈ m.enums, e.owner = c.name ∧ e.propertyName = f.name ∧ e.name = name := by
  obtain ⟨g, read, resolved⟩ := resolve_of_resolveDocument returned
  have sound := (isBuilt_of_readGraph read).wellFormed
  have origin : ∀ e ∈ m.enums, g.IsEnumOf e := fun e => isEnumOf_of_mem_enums sound resolved
  refine ⟨?_, ?_, ?_⟩
  · intro e member e' member'
    rw [(origin e member).named, (origin e' member').named, EnumDef.nameFor_eq_iff]
  · intro e member e' member'
    exact (origin e member).unique (origin e' member')
  · intro c member f field name
    exact exists_enum_of_field resolved member field

/-- Orders have a status, and so do purchases; the status of an order has a type of its own. -/
def statusDocument : Entries :=
  [(.text "types", .map [
    (.text "Order", .map [(.text "properties", .map [
      (.text "status", .map [(.text "enum", .list [.text "open"])])])]),
    (.text "Purchase", .map [(.text "type", .text "Order")]),
    (.text "OrderStatus", .map [(.text "enum", .list [.text "closed"])])])]

def openOrder : EnumDef :=
  ⟨"OrderStatus", "Order", "status", "string", [⟨"OPEN", .text "open"⟩]⟩

def openPurchase : EnumDef :=
  ⟨"PurchaseStatus", "Purchase", "status", "string", [⟨"OPEN", .text "open"⟩]⟩

def closedStatus : EnumDef :=
  ⟨"OrderStatus", "OrderStatus", "", "string", [⟨"CLOSED", .text "closed"⟩]⟩

theorem statusDocument_enums :
    ∃ m, (resolveDocument Profile.java "" {} statusDocument).outcome = .ok m ∧
      m.enums = [openOrder, openPurchase, closedStatus] :=
  exists_of_toOption_map (by decide +kernel)

/-- A purchase has an enum of its own for the property that it inherits. -/
theorem resolveDocument_enumNames_purchase :
    ∃ m, (resolveDocument Profile.java "" {} statusDocument).outcome = .ok m ∧
      openOrder ∈ m.enums ∧ openPurchase ∈ m.enums ∧ openOrder.name ≠ openPurchase.name ∧
      (∀ e ∈ m.enums, e.owner = "Purchase" → e.propertyName = "status" → e = openPurchase) ∧
      ∀ c ∈ m.classes, ∀ f ∈ c.fields, ∀ name, TargetType.IsPart (.enumRef name) f.type →
        ∃ e ∈ m.enums, e.owner = c.name ∧ e.propertyName = f.name ∧ e.name = name := by
  obtain ⟨m, returned, enums⟩ := statusDocument_enums
  have order : openOrder ∈ m.enums := by simp [enums]
  have purchase : openPurchase ∈ m.enums := by simp [enums]
  obtain ⟨shared, single, referred⟩ := resolveDocument_enumNames returned
  refine ⟨m, returned, order, purchase, ?_, ?_, referred⟩
  · rw [Ne, shared openOrder order openPurchase purchase]
    exact EnumDef.sharesName_owners_iff.not.mpr (by decide)
  · intro e member owned labelled
    exact single e member openPurchase purchase (by simp [labelled]) owned labelled

/-- The status of an order is named as the type for it, which has other members. -/
theorem enumNames_clash :
    ∃ m, (resolveDocument Profile.java "" {} statusDocument).outcome = .ok m ∧
      openOrder ∈ m.enums ∧ closedStatus ∈ m.enums ∧
      (openOrder.owner, openOrder.propertyName) ≠
        (closedStatus.owner, closedStatus.propertyName) ∧
      openOrder.name = closedStatus.name ∧ openOrder.members ≠ closedStatus.members := by
  obtain ⟨m, returned, enums⟩ := statusDocument_enums
  exact ⟨m, returned, by simp [enums], by simp [enums], by decide, rfl, by decide⟩

end TypeGraph

end RamlTypes
