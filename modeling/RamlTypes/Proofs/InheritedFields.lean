import RamlTypes.Proofs.MappedTypes
import RamlTypes.Proofs.ModelContents

/-!
# Inherited fields

A field that a class leaves to its ancestors is emitted by one of them. One step up, the parent has
a field of the same name, since a property with the same text is read as the same type and is mapped
on the parent as it is on the child. So the walk up from the class passes fields of that name until
one is a member, at the latest on the root.

The field above has the same target type, except where the parent has an enum: then it has the
type of the enum, although the text that is compared is the same.
-/
namespace RamlTypes

namespace TypeGraph

variable {g : TypeGraph} {primitive? : String → Option String} {config : Config}
variable {name parent : String} {c above : ResolvedClass} {f : ResolvedField}

/-- The properties under the key have the same text on both types. -/
def SameText (g : TypeGraph) (key low high : String) : Prop :=
  ∃ p q, g.IsEffective low key p ∧ g.IsEffective high key q ∧ p.type.raw = q.type.raw

theorem SameText.trans {key low middle high : String} (first : g.SameText key low middle)
    (second : g.SameText key middle high) : g.SameText key low high := by
  obtain ⟨p, q, effective, passed, same⟩ := first
  obtain ⟨q', r, passed', effective', same'⟩ := second
  cases passed.unique passed'
  exact ⟨p, r, effective, effective', same.trans same'⟩

/-! ### One step up -/

/-- A field that is left to the ancestors is no enum, and the parent has a property of the same name
and type. -/
theorem property_above (sound : g.WellFormed)
    (standing : IsClassOf (Resolver.ofGraph primitive? config g) name c) (member : f ∈ c.fields)
    (left : f.isMember = false) :
    ∃ parent p q, g.parent? name = some parent ∧ f.name ∉ config.globalIgnoreFields ∧
      g.IsEffective name f.name p ∧ g.IsEffective parent f.name q ∧ q.type = p.type ∧
      ((Resolver.ofGraph primitive? config g).mapper.mapType q.type).outcome = .ok f.type := by
  obtain ⟨p, shown, effective, mapped, placed⟩ := standing.property_of_field sound.keyed member
  rw [left] at placed
  obtain ⟨plain, parent, q, up, inherited, same⟩ := isMember_eq_false_iff.mp placed
  rw [effective.named sound] at inherited
  -- Both types were read from texts, so equal texts make them equal.
  have type_eq : q.type = p.type :=
    (inherited.parsed sound).eq_of_raw_eq (effective.parsed sound) same
  rw [TypeMapper.mapProperty_plain plain, ← type_eq] at mapped
  exact ⟨parent, p, q, up, shown, effective, inherited, type_eq, mapped⟩

/-- What a class leaves to its ancestors, its parent has with the same text. -/
theorem field_above (sound : g.WellFormed)
    (child : IsClassOf (Resolver.ofGraph primitive? config g) name c)
    (higher : IsClassOf (Resolver.ofGraph primitive? config g) parent above)
    (up : g.parent? name = some parent) (member : f ∈ c.fields) (left : f.isMember = false) :
    g.SameText f.name name parent ∧ ∃ f' ∈ above.fields, f'.name = f.name := by
  obtain ⟨parent', p, q, up', shown, effective, inherited, same, mapped⟩ :=
    property_above sound child member left
  cases up.symm.trans up'
  refine ⟨⟨p, q, effective, inherited, by rw [same]⟩, ?_⟩
  -- If it is no enum on the parent, its type is mapped as it was below.
  obtain ⟨target, mapped'⟩ := TypeMapper.exists_mapProperty parent fun _ => ⟨f.type, mapped⟩
  obtain ⟨f', member', named, _⟩ := higher.field_of_property sound.keyed shown inherited mapped'
  exact ⟨f', member', named⟩

/-! ### The whole way up -/

/-- Where all ancestors have classes, a field that is left to them is met again on each type of the
walk up, until one of them emits it. -/
theorem Lineage.field_emitted {path : List String} {model : Model} (line : g.Lineage name path)
    (sound : g.WellFormed)
    (classes : ∀ passed ∈ path.tail, ∃ c, model.class? passed = some c)
    (standing : ∀ {passed c}, model.class? passed = some c →
      IsClassOf (Resolver.ofGraph primitive? config g) passed c)
    (has : model.HasField name f) (left : f.isMember = false) :
    ∃ between emitter beyond f', path.tail = between ++ emitter :: beyond ∧
      model.HasField emitter f' ∧ f'.name = f.name ∧ f'.isMember = true ∧
      g.SameText f.name name emitter ∧
      ∀ passed ∈ between, ∃ f'', model.HasField passed f'' ∧ f''.name = f.name ∧
        f''.isMember = false := by
  -- On the lineage. At its end there is no parent, so nothing can be left to one.
  induction line generalizing f with
  | @undeclared name absent =>
    obtain ⟨c, found, member⟩ := has
    obtain ⟨parent, _, _, up, _⟩ := property_above sound (standing found) member left
    simp [parent?_of_undeclared absent] at up
  | @root name _ top =>
    obtain ⟨c, found, member⟩ := has
    obtain ⟨parent, _, _, up, _⟩ := property_above sound (standing found) member left
    simp [top] at up
  | @child name parent path _ up rest ih =>
    obtain ⟨c, found, member⟩ := has
    obtain ⟨beyond, rfl⟩ := rest.starts (sound.parent_declared up)
    obtain ⟨above, found'⟩ := classes parent (by simp)
    obtain ⟨text, f', member', named⟩ :=
      field_above sound (standing found) (standing found') up member left
    cases emitted : f'.isMember with
    | true =>
      exact ⟨[], parent, beyond, f', rfl, ⟨above, found', member'⟩, named, emitted, text, by simp⟩
    | false =>
      -- The parent leaves its field as well, so the walk goes on from there.
      obtain ⟨between, emitter, beyond', f'', split, has'', named'', emitted'', text', passes⟩ :=
        ih (fun passed listed => classes passed (List.mem_cons_of_mem _ listed))
          ⟨above, found', member'⟩ emitted
      rw [named] at named'' text' passes
      refine ⟨parent :: between, emitter, beyond', f'', ?_, has'', named'', emitted'',
        text.trans text', ?_⟩
      · simpa using split
      · intro passed listed
        rcases List.mem_cons.mp listed with rfl | later
        · exact ⟨f', ⟨above, found', member'⟩, named, emitted⟩
        · exact passes passed later

/-- No field is lost to inheritance. Where no ancestor of a class is ignored, each field that the
class leaves to its ancestors is emitted by one of them, with the same text, and every class in
between has it and leaves it as well. -/
theorem inherited_field_emitted (built : g.IsBuilt) {backend : String} {model : Model}
    (resolved : ((Resolver.ofGraph primitive? config g).resolve backend).outcome = .ok model)
    (member : c ∈ model.classes)
    (present : ∀ ancestor ∈ c.ancestors, ancestor ∉ config.ignoreClasses)
    (field : f ∈ c.fields) (left : f.isMember = false) :
    ∃ between emitter beyond f', c.ancestors = between ++ emitter :: beyond ∧
      model.HasField emitter f' ∧ f'.name = f.name ∧ f'.isMember = true ∧
      g.SameText f.name c.name emitter ∧
      ∀ passed ∈ between, ∃ f'', model.HasField passed f'' ∧ f''.name = f.name ∧
        f''.isMember = false := by
  have sound := built.wellFormed
  have found := class?_of_mem_classes sound resolved member
  have standing : IsClassOf (Resolver.ofGraph primitive? config g) c.name c :=
    isClassOf_of_class? sound resolved found
  obtain ⟨path, line, ancestors⟩ := standing.descended
  rw [ancestors] at present ⊢
  refine Lineage.field_emitted line sound ?_ (isClassOf_of_class? sound resolved)
    ⟨c, found, field⟩ left
  intro passed listed
  exact exists_class sound resolved (line.declared passed (List.mem_of_mem_tail listed))
    (present passed listed)

/-- The age of a puppy is that of a dog, which is emitted on the pet. -/
theorem inherited_field_emitted_pets :
    ∃ model c f,
      ((Resolver.ofGraph Profile.java.primitive? {} petGraph).resolve "java").outcome = .ok model ∧
      c ∈ model.classes ∧ c.ancestors = ["Dog", "Pet"] ∧ f ∈ c.fields ∧ f.isMember = false ∧
      ∃ between emitter beyond f', c.ancestors = between ++ emitter :: beyond ∧
        model.HasField emitter f' ∧ f'.name = f.name ∧ f'.isMember = true ∧
        petGraph.SameText f.name c.name emitter ∧
        ∀ passed ∈ between, ∃ f'', model.HasField passed f'' ∧ f''.name = f.name ∧
          f''.isMember = false := by
  have resolved : ∃ model c f,
      ((Resolver.ofGraph Profile.java.primitive? {} petGraph).resolve "java").outcome = .ok model ∧
      c ∈ model.classes ∧ c.ancestors = ["Dog", "Pet"] ∧ f ∈ c.fields ∧ f.isMember = false :=
    ⟨_, _, _, by cbv, List.mem_cons_self, rfl, List.mem_cons_self, rfl⟩
  obtain ⟨model, c, f, returned, member, ancestors, field, left⟩ := resolved
  exact ⟨model, c, f, returned, member, ancestors, field, left,
    inherited_field_emitted petGraph_isBuilt returned member (by simp) field left⟩

/-! ### The type of an inherited field -/

/-- A field of the parent has the type of the one that is left to it, unless it is an enum. -/
theorem type_above_iff {q : Property} {f' : ResolvedField} (sound : g.WellFormed)
    (higher : IsClassOf (Resolver.ofGraph primitive? config g) parent above)
    (inherited : g.IsEffective parent f.name q)
    (mapped : ((Resolver.ofGraph primitive? config g).mapper.mapType q.type).outcome = .ok f.type)
    (member' : f' ∈ above.fields) (named : f'.name = f.name) :
    f'.type = f.type ↔ q.isEnum = false := by
  obtain ⟨q', _, inherited', mapped', _⟩ := higher.property_of_field sound.keyed member'
  rw [named] at inherited'
  cases inherited.unique inherited'
  cases enum : q.isEnum with
  | false =>
    rw [TypeMapper.mapProperty_plain enum, mapped] at mapped'
    exact iff_of_true (Except.ok.inj mapped').symm rfl
  | true =>
    rw [TypeMapper.mapProperty_enum enum] at mapped'
    have typed : .enumRef (EnumDef.nameFor parent q.name) = f'.type := Except.ok.inj mapped'
    -- The type that is left to the parent was mapped from an expression.
    have other : f'.type ≠ f.type := by
      intro same
      rw [← same, ← typed] at mapped
      exact TypeMapper.mapType_ne_enumRef q.type _ mapped
    exact iff_of_false other (by simp)

/-- A field that is left to the parent is there, and its type is the same exactly when the property
of the parent is no enum. -/
theorem inherited_type_iff {profile : Profile} {requested : String} {document : Entries}
    {model : Model}
    (resolved : (resolveDocument profile requested config document).outcome = .ok model)
    (member : c ∈ model.classes) (up : c.parent = some parent)
    (present : model.class? parent = some above) (field : f ∈ c.fields)
    (left : f.isMember = false) :
    ∃ g q, (readGraph document).outcome = .ok g ∧ g.IsEffective parent f.name q ∧
      (∃ f' ∈ above.fields, f'.name = f.name) ∧
      ∀ f' ∈ above.fields, f'.name = f.name → (f'.type = f.type ↔ q.isEnum = false) := by
  obtain ⟨g, read, returned⟩ := resolve_of_resolveDocument resolved
  have sound := (isBuilt_of_readGraph read).wellFormed
  have child := isClassOf_of_class? sound returned (class?_of_mem_classes sound returned member)
  have higher := isClassOf_of_class? sound returned present
  have linked : g.parent? c.name = some parent := child.parented.symm.trans up
  obtain ⟨parent', _, q, up', _, _, inherited, _, mapped⟩ := property_above sound child field left
  cases linked.symm.trans up'
  refine ⟨g, q, read, inherited, (field_above sound child higher linked field left).2, ?_⟩
  exact fun f' member' named => type_above_iff sound higher inherited mapped member' named

/-- Orders whose kind is an enum, and purchases that declare it as a string. -/
def orderDocument : Entries :=
  [(.text "types", .map [
    (.text "Order", .map [
      (.text "properties", .map [(.text "kind", .map [
        (.text "type", .text "string"),
        (.text "enum", .list [.text "retail"])])])]),
    (.text "Purchase", .map [
      (.text "type", .text "Order"),
      (.text "properties", .map [(.text "kind", .text "string")])])])]

/-- The kind of a purchase is left to the order, where it is an enum and no string. -/
theorem inherited_type_iff_orders :
    ∃ model c above f g q,
      (resolveDocument Profile.java "" {} orderDocument).outcome = .ok model ∧
      c ∈ model.classes ∧ c.parent = some "Order" ∧ model.class? "Order" = some above ∧
      f ∈ c.fields ∧ f.isMember = false ∧
      (readGraph orderDocument).outcome = .ok g ∧
      g.IsEffective "Order" f.name q ∧ (∃ f' ∈ above.fields, f'.name = f.name) ∧
      ∀ f' ∈ above.fields, f'.name = f.name → (f'.type = f.type ↔ q.isEnum = false) := by
  have resolved : ∃ model c above f,
      (resolveDocument Profile.java "" {} orderDocument).outcome = .ok model ∧
      c ∈ model.classes ∧ c.parent = some "Order" ∧ model.class? "Order" = some above ∧
      f ∈ c.fields ∧ f.isMember = false :=
    ⟨_, _, _, _, by cbv, List.mem_cons_of_mem _ List.mem_cons_self, rfl, rfl,
      List.mem_cons_self, rfl⟩
  obtain ⟨model, c, above, f, returned, member, up, present, field, left⟩ := resolved
  obtain ⟨g, q, read, inherited, above_eq⟩ :=
    inherited_type_iff returned member up present field left
  exact ⟨model, c, above, f, g, q, returned, member, up, present, field, left, read, inherited,
    above_eq⟩

/-- The string that a purchase declares is not what its order emits. -/
theorem inherited_type_differs :
    ∃ model c above f,
      (resolveDocument Profile.java "" {} orderDocument).outcome = .ok model ∧
      c ∈ model.classes ∧ c.parent = some "Order" ∧ model.class? "Order" = some above ∧
      f ∈ c.fields ∧ f.isMember = false ∧ f.type = .primitive "String" ∧
      ∃ f' ∈ above.fields, f'.name = f.name ∧ f'.type = .enumRef "OrderKind" := by
  refine ⟨_, _, _, _, by cbv, List.mem_cons_of_mem _ List.mem_cons_self, rfl, rfl,
    List.mem_cons_self, rfl, rfl, ?_⟩
  exact ⟨_, List.mem_cons_self, rfl, rfl⟩

end TypeGraph

end RamlTypes
