import RamlTypes.Proofs.MappedTypes
import RamlTypes.Proofs.ModelHierarchy

/-!
# Abstract types

A type is abstract if it has children and no parent and its name occurs in no property and no
payload. The names are collected from the expressions as they are declared, while fields have target
types, mapped from what is inherited and not shadowed. Still no name gets into a target type that
does not occur in the expression, so a field never asks for an object of an abstract type.
-/
namespace RamlTypes

theorem Dispatch.isAbstract_iff {d : Dispatch} {name : String} :
    d.isAbstract name = true ↔ d.hierarchy.children name ≠ [] ∧ name ∉ d.usage.used ∧
      d.hierarchy.graph.parent? name = none := by
  simp [isAbstract, isUsed, and_assoc]

theorem Property.mem_walk (p : Property) : p ∈ p.walk := by
  cases p
  rw [walk]
  exact List.mem_cons_self

theorem Property.mem_walkAll {p : Property} {properties : List Property} (listed : p ∈ properties) :
    p ∈ walkAll properties := by
  induction properties with
  | nil => cases listed
  | cons first rest ih =>
    rw [walkAll, List.mem_append]
    rcases List.mem_cons.mp listed with rfl | later
    · exact .inl p.mem_walk
    · exact .inr (ih later)

/-- An object that a mapping asks for has a name that occurs in the expression. -/
theorem TypeMapper.mem_referencedNames {m : TypeMapper} {type : TypeExpr} {target : TargetType}
    {name : String} (mapped : (m.mapType type).outcome = .ok target)
    (inside : TargetType.IsPart (.objectRef name) target) : name ∈ type.referencedNames := by
  obtain ⟨source, inside', mapped'⟩ := source_of_isPart inside mapped
  obtain ⟨named, raw, qualifier, rfl⟩ := eq_named_of_mapType mapped'
  exact inside'.referencedNames_subset (by simp [TypeExpr.referencedNames, named])

namespace TypeGraph

variable {g : TypeGraph} {name : String}

theorem mem_usedNames_of_property {p : Property} (listed : p ∈ g.allProperties)
    (occurs : name ∈ p.type.referencedNames) : name ∈ g.usedNames :=
  List.mem_append_left _ (List.mem_flatMap.mpr ⟨p, listed, occurs⟩)

theorem IsEffective.mem_usedNames {owner key : String} {p : Property}
    (effective : g.IsEffective owner key p) (occurs : name ∈ p.type.referencedNames) :
    name ∈ g.usedNames := by
  -- Whichever type of the chain declares the property, the usage is collected from all types.
  obtain ⟨_, declarer, _, node, found, declared⟩ := effective.declaredBy
  have listed : p ∈ g.allProperties :=
    List.mem_flatMap.mpr ⟨node, List.mem_map.mpr ⟨_, node?_eq_some_iff.mp found, rfl⟩,
      Property.mem_walkAll (List.mem_map.mpr ⟨_, declared, rfl⟩)⟩
  exact mem_usedNames_of_property listed occurs

variable {primitive? : String → Option String} {config : Config}

/-- The objects in the type of a field are used. -/
theorem IsClassOf.mem_usedNames {owner : String} {c : ResolvedClass} {f : ResolvedField}
    (sound : g.WellFormed) (standing : IsClassOf (Resolver.ofGraph primitive? config g) owner c)
    (member : f ∈ c.fields) (inside : TargetType.IsPart (.objectRef name) f.type) :
    name ∈ g.usedNames := by
  obtain ⟨p, _, effective, mapped, _⟩ := standing.property_of_field sound.keyed member
  cases enum : p.isEnum with
  | true =>
    rw [TypeMapper.mapProperty_enum enum] at mapped
    have typed : .enumRef (EnumDef.nameFor owner p.name) = f.type := Except.ok.inj mapped
    rw [← typed] at inside
    -- An enum has no parts, and is no object itself.
    cases inside with
    | within listed _ => cases listed
  | false =>
    rw [TypeMapper.mapProperty_plain enum] at mapped
    exact effective.mem_usedNames (TypeMapper.mem_referencedNames mapped inside)

/-- An abstract class is a root with children, and no field is of its type: at every depth the class
can only be the common ancestor of a union. Built-in types and enums are no classes, however they
are spelled. -/
theorem resolveDocument_abstract {profile : Profile} {requested : String} {document : Entries}
    {m : Model} (returned : (resolveDocument profile requested config document).outcome = .ok m)
    {c : ResolvedClass} (member : c ∈ m.classes) (isAbstract : c.isAbstract = true) :
    c.children ≠ [] ∧ c.parent = none ∧
      ∀ other ∈ m.classes, ∀ f ∈ other.fields, ∀ part : TargetType, part.IsPart f.type →
        part ≠ .objectRef c.name ∧
        (part.referenced? = some c.name → ∃ members, part = .unionOf c.name members) := by
  obtain ⟨g, read, resolved⟩ := resolve_of_resolveDocument returned
  have sound := (isBuilt_of_readGraph read).wellFormed
  have standing := isClassOf_of_class? sound resolved (class?_of_mem_classes sound resolved member)
  obtain ⟨node, resolution, _, named, made, rfl⟩ :=
    resolveNode_of_mem_classes sound.keyed resolved member
  -- The class has its flag from the usage of the whole graph.
  obtain ⟨children, placed, _⟩ := resolveNode_placed made
  obtain ⟨parental, unused, root⟩ := Dispatch.isAbstract_iff.mp (placed ▸ isAbstract)
  rw [named] at children parental unused root
  refine ⟨children ▸ parental, standing.parented.trans root, ?_⟩
  intro other member' f field part inside
  have standing' :=
    isClassOf_of_class? sound resolved (class?_of_mem_classes sound resolved member')
  -- The field comes from a property of the graph, so the usage has all that its type asks for.
  have apart : part ≠ .objectRef resolution.record.name := by
    rintro rfl
    exact unused (IsClassOf.mem_usedNames sound standing' field inside)
  refine ⟨apart, fun refers => ?_⟩
  exact (TargetType.referenced?_eq_some_iff.mp refers).resolve_left apart

/-- Pets that are known as cats and dogs only, in the boxes of a home. -/
def homeDocument : Entries :=
  [(.text "types", .map [
    (.text "Pet", .map [(.text "properties", .map [(.text "name", .text "string")])]),
    (.text "Cat", .map [(.text "type", .text "Pet")]),
    (.text "Dog", .map [(.text "type", .text "Pet")]),
    (.text "Home", .map [(.text "properties", .map [
      (.text "boxes", .text "(Cat | Dog)[]")])])])]

/-- A home has pets, as what cats and dogs have in common. -/
theorem resolveDocument_abstract_pets :
    ∃ m c home f, (resolveDocument Profile.java "" {} homeDocument).outcome = .ok m ∧
      c ∈ m.classes ∧ c.name = "Pet" ∧ c.isAbstract = true ∧ home ∈ m.classes ∧ f ∈ home.fields ∧
      f.type = .listOf (.unionOf "Pet" [.objectRef "Cat", .objectRef "Dog"]) ∧
      c.children ≠ [] ∧ c.parent = none ∧
      ∀ part : TargetType, part.IsPart f.type → part ≠ .objectRef "Pet" := by
  have resolved : ∃ m c home f,
      (resolveDocument Profile.java "" {} homeDocument).outcome = .ok m ∧
      m.class? "Pet" = some c ∧ c.isAbstract = true ∧ m.class? "Home" = some home ∧
      f ∈ home.fields ∧
      f.type = .listOf (.unionOf "Pet" [.objectRef "Cat", .objectRef "Dog"]) :=
    ⟨_, _, _, _, by cbv, by cbv, by cbv, by cbv, List.mem_cons_self, by cbv⟩
  obtain ⟨m, c, home, f, returned, found, isAbstract, found', field, typed⟩ := resolved
  obtain ⟨member, named⟩ := Model.class?_eq_some found
  obtain ⟨member', _⟩ := Model.class?_eq_some found'
  obtain ⟨children, root, apart⟩ := resolveDocument_abstract returned member isAbstract
  refine ⟨m, c, home, f, returned, member, named, isAbstract, member', field, typed, children, root,
    fun part inside => ?_⟩
  rw [← named]
  exact (apart home member' f field part inside).1

end TypeGraph

end RamlTypes
