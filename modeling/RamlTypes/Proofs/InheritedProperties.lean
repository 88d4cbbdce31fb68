import RamlTypes.Proofs.MappedTypes
import RamlTypes.Proofs.ModelContents

/-!
# Inherited properties

A class and its parent are resolved one without the other, each with all properties along its own
chain. What the class does not declare itself is the same property on both, though, at whatever
height it is declared. So the two have the same field for it, which the class leaves to the parent;
only an enum is named for the class that has it, and emitted on both.
-/
namespace RamlTypes

namespace TypeGraph

variable {g : TypeGraph} {name parent key : String} {p : Property}

/-- An inherited property belongs to the type itself exactly if it is an enum. -/
theorem isMember_of_inherited (keyed : g.Keyed) (up : g.parent? name = some parent)
    (inherited : g.IsEffective parent key p) :
    g.hierarchy.isMember name p = .ok p.isEnum := by
  cases enum : p.isEnum with
  | true => exact isMember_of_isEnum enum name
  | false =>
    have named : p.name = key := inherited.keyed keyed
    rw [← named] at inherited
    exact isMember_eq_false_iff.mpr ⟨enum, parent, p, up, inherited, rfl⟩

variable {primitive? : String → Option String} {config : Config} {c above : ResolvedClass}

/-- For a property that both types have, one class has a field if the other one has. -/
theorem IsClassOf.exists_field_of_shared {name' : String} {f : ResolvedField} (keyed : g.Keyed)
    (standing : IsClassOf (Resolver.ofGraph primitive? config g) name c)
    (standing' : IsClassOf (Resolver.ofGraph primitive? config g) name' above)
    (effective : g.IsEffective name f.name p) (effective' : g.IsEffective name' f.name p)
    (field : f ∈ c.fields) : ∃ f' ∈ above.fields, f'.name = f.name := by
  obtain ⟨p', shown, effective'', mapped, _⟩ := standing.property_of_field keyed field
  cases effective.unique effective''
  -- The field shows that the property can be mapped, and then it is mapped on the other type too.
  obtain ⟨target, mapped'⟩ := TypeMapper.mapProperty_returns mapped name'
  obtain ⟨f', field', named, _⟩ := standing'.field_of_property keyed shown effective' mapped'
  exact ⟨f', field', named⟩

/-- The field of a class for a property that it inherits, compared to the one of its parent. -/
structure IsInherited (owner key : String) (p : Property) (f f' : ResolvedField) : Prop where
  plain : p.isEnum = false → f = { f' with isMember := false }
  enum : p.isEnum = true → f = { f' with type := .enumRef (EnumDef.nameFor owner key) } ∧
    f.isMember = true ∧ f'.isMember = true

theorem IsClassOf.isInherited {f f' : ResolvedField} (keyed : g.Keyed)
    (child : IsClassOf (Resolver.ofGraph primitive? config g) name c)
    (higher : IsClassOf (Resolver.ofGraph primitive? config g) parent above)
    (up : g.parent? name = some parent) (effective : g.IsEffective name key p)
    (inherited : g.IsEffective parent key p) (field : f ∈ c.fields) (field' : f' ∈ above.fields)
    (named : f.name = key) (named' : f'.name = key) : IsInherited name key p f f' := by
  obtain ⟨target, isMember, mapped, placed, rfl⟩ :=
    child.field_eq keyed field (by rwa [named])
  obtain ⟨target', isMember', mapped', placed', rfl⟩ :=
    higher.field_eq keyed field' (by rwa [named'])
  cases placed.symm.trans (isMember_of_inherited keyed up inherited)
  -- Both fields are made for one property, so only the target and the place can differ.
  constructor
  · intro plain
    rw [TypeMapper.mapProperty_plain plain] at mapped mapped'
    cases mapped.symm.trans mapped'
    rw [plain]
    rfl
  · intro enum
    rw [TypeMapper.mapProperty_enum enum, inherited.keyed keyed] at mapped
    rw [TypeMapper.mapProperty_enum enum] at mapped'
    cases mapped
    cases mapped'
    cases placed'.symm.trans (isMember_of_isEnum enum parent)
    rw [enum]
    exact ⟨rfl, rfl, rfl⟩

/-- What a class does not declare itself it has as its parent does. It has a field for it if the
parent has one, and the two are the same up to their place and the name of an enum. -/
theorem resolve_inherits (keyed : g.Keyed) {backend : String} {m : Model}
    (returned : ((Resolver.ofGraph primitive? config g).resolve backend).outcome = .ok m)
    (member : c ∈ m.classes) (up : c.parent = some parent)
    (present : m.class? parent = some above) (effective : g.IsEffective c.name key p)
    (undeclared : ¬ g.Declares c.name key) :
    ((∃ f ∈ c.fields, f.name = key) ↔ ∃ f' ∈ above.fields, f'.name = key) ∧
    ∀ f ∈ c.fields, ∀ f' ∈ above.fields, f.name = key → f'.name = key →
      IsInherited c.name key p f f' := by
  obtain ⟨member', rfl⟩ := Model.class?_eq_some present
  have child := isClassOf_of_mem_classes keyed returned member
  have higher := isClassOf_of_mem_classes keyed returned member'
  have linked : g.parent? c.name = some above.name := child.parented.symm.trans up
  have inherited : g.IsEffective above.name key p :=
    (isEffective_parent_iff linked undeclared).mp effective
  refine ⟨⟨?_, ?_⟩, ?_⟩
  · rintro ⟨f, field, rfl⟩
    exact child.exists_field_of_shared keyed higher effective inherited field
  · rintro ⟨f', field', rfl⟩
    exact higher.exists_field_of_shared keyed child inherited effective field'
  · intro f field f' field' named named'
    exact child.isInherited keyed higher linked effective inherited field field' named named'

def bookTitle : Property := ⟨"title", .named "string" "string" "", true, [], none, ""⟩

def bookBinding : Property :=
  ⟨"binding", .named "string" "string" "", true, [], some [.text "cloth", .text "paper"], ""⟩

/-- Books have a title and a binding, and an atlas is a book that declares neither. -/
def bookGraph : TypeGraph where
  title := ""
  nodes := ⟨[
    ("Book", objectNode "Book" none ⟨[("title", bookTitle), ("binding", bookBinding)], by simp⟩),
    ("Atlas", objectNode "Atlas" (some "Book") .empty)], by simp⟩
  resources := []

/-- An atlas leaves its title to the book, and has a binding of its own. -/
theorem resolve_inherits_books :
    ∃ m c above, bookGraph.Keyed ∧
      ((Resolver.ofGraph Profile.java.primitive? {} bookGraph).resolve "java").outcome = .ok m ∧
      c ∈ m.classes ∧ c.name = "Atlas" ∧ c.parent = some "Book" ∧ m.class? "Book" = some above ∧
      bookGraph.IsEffective c.name "title" bookTitle ∧ ¬ bookGraph.Declares c.name "title" ∧
      bookGraph.IsEffective c.name "binding" bookBinding ∧
      ¬ bookGraph.Declares c.name "binding" ∧
      ∀ f ∈ c.fields, ∀ f' ∈ above.fields, f'.name = f.name →
        (f.name = "title" → f = { f' with isMember := false }) ∧
        (f.name = "binding" → f = { f' with type := .enumRef "AtlasBinding" }) := by
  have keyed : bookGraph.Keyed := ⟨by decide, by decide⟩
  have effective : bookGraph.IsEffective "Atlas" "title" bookTitle := ⟨_, by cbv, by cbv⟩
  have effective' : bookGraph.IsEffective "Atlas" "binding" bookBinding := ⟨_, by cbv, by cbv⟩
  have undeclared (key : String) : ¬ bookGraph.Declares "Atlas" key := by
    rintro ⟨node, found, listed⟩
    cases found
    simp [objectNode, Table.empty, Table.keys] at listed
  obtain ⟨m, c, above, returned, member, named, up, present⟩ : ∃ m c above,
      ((Resolver.ofGraph Profile.java.primitive? {} bookGraph).resolve "java").outcome = .ok m ∧
        c ∈ m.classes ∧ c.name = "Atlas" ∧ c.parent = some "Book" ∧
        m.class? "Book" = some above :=
    ⟨_, _, _, by cbv, List.mem_cons_of_mem _ List.mem_cons_self, rfl, rfl, rfl⟩
  rw [← named] at effective effective' undeclared
  obtain ⟨_, titles⟩ := resolve_inherits keyed returned member up present effective (undeclared _)
  obtain ⟨_, bindings⟩ :=
    resolve_inherits keyed returned member up present effective' (undeclared _)
  refine ⟨m, c, above, keyed, returned, member, named, up, present, effective, undeclared _,
    effective', undeclared _, ?_⟩
  intro f field f' field' same
  constructor
  · exact fun shown => (titles f field f' field' shown (same.trans shown)).plain rfl
  · intro shown
    have inherits := bindings f field f' field' shown (same.trans shown)
    rw [named] at inherits
    exact (inherits.enum rfl).1

end TypeGraph

end RamlTypes
