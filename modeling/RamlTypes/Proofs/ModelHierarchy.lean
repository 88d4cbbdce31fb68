import RamlTypes.Proofs.ModelContents
import RamlTypes.Proofs.ParentLinks
import RamlTypes.Proofs.SortedNames

/-!
# The hierarchy of a model

A model is only returned where every chain of its graph has been walked, so its parent links run in
no circle. Walking them without a guard ends on every name and passes the chain of the graph, also
where types of the chain are ignored. Each class has the chain of its type as its ancestors, and its
children are the types that have it as their parent.
-/
namespace RamlTypes

/-- The model tells the hierarchy of the graph. Its chains end although nothing guards them, and are
those of the graph; its classes have their ancestors and children from there. -/
structure Model.Reflects (m : Model) (g : TypeGraph) : Prop where
  chains : ∀ name, ∃ path, g.hierarchy.chain name = .ok path ∧
    m.Walk (m.start? name) path ∧ m.chain? name = some path
  descent : ∀ c ∈ m.classes, m.chain? c.name = some (c.name :: c.ancestors)
  distinct : ∀ c ∈ m.classes, c.ancestors.Nodup ∧ c.name ∉ c.ancestors
  sorted : ∀ c ∈ m.classes, c.children.Pairwise (· < ·)
  children : ∀ c ∈ m.classes, ∀ name,
    name ∈ c.children ↔ g.isDeclared name = true ∧ g.parent? name = some c.name
  hasChildren : ∀ c ∈ m.classes, c.hasChildren = true ↔ c.children ≠ []

namespace TypeGraph

variable {g : TypeGraph} {m : Model} {name : String} {path : List String}

/-! ### Children -/

theorem mem_children_iff {child : String} :
    child ∈ g.children name ↔ g.isDeclared child = true ∧ g.parent? child = some name := by
  simp only [children, sortNames, mem_sortOn, List.mem_map, List.mem_filter,
    decide_eq_true_eq]
  constructor
  · rintro ⟨⟨key, node⟩, ⟨member, linked⟩, rfl⟩
    have found : g.node? key = some node := node?_eq_some_iff.mpr member
    exact ⟨Option.isSome_iff_exists.mpr ⟨node, found⟩, by simpa [parent?, found] using linked⟩
  · rintro ⟨_, up⟩
    obtain ⟨node, found, linked⟩ := Option.bind_eq_some_iff.mp up
    exact ⟨(child, node), ⟨node?_eq_some_iff.mp found, linked⟩, rfl⟩

theorem children_strict (g : TypeGraph) (name : String) : (g.children name).Pairwise (· < ·) :=
  sortNames_strict ((List.filter_sublist.map Prod.fst).nodup g.nodes.nodup)

/-! ### Chains -/

variable (links : m.parents = g.nodes.map fun _ node => node.parent)
include links

theorem parent?_of_links : m.parent? name = g.parent? name := by
  rw [Model.parent?, links, Table.find?_map, parent?, node?]
  cases g.nodes.find? name <;> rfl

theorem start?_of_links : m.start? name = if g.isDeclared name = true then some name else none := by
  have listed : m.parents.contains name = g.isDeclared name := by
    rw [links, Table.contains, Table.find?_map, Option.isSome_map, isDeclared, Table.contains]
  rw [Model.start?, listed]

/-- The links lead along the lineage of a declared name. -/
theorem Lineage.walk (line : g.Lineage name path) (sound : g.WellFormed)
    (declared : g.isDeclared name = true) : m.Walk (some name) path := by
  induction line with
  | undeclared absent => simp [declared] at absent
  | root _ top =>
    refine .step ?_
    rw [parent?_of_links links, top]
    exact .done
  | child _ up _ ih =>
    refine .step ?_
    rw [parent?_of_links links, up]
    exact ih (sound.parent_declared up)

theorem Lineage.walk_start (line : g.Lineage name path) (sound : g.WellFormed) :
    m.Walk (m.start? name) path := by
  rw [start?_of_links links]
  split
  next declared => exact line.walk links sound declared
  next absent =>
    -- A name that is not declared is not listed, and has no lineage to walk.
    cases line.unique (.undeclared (Bool.eq_false_iff.mpr absent))
    exact .done

omit links

/-! ### Models -/

variable {primitive? : String → Option String} {config : Config} {backend : String}

/-- A resolution that returns has walked every chain. -/
theorem acyclic_of_resolve
    (returned : ((Resolver.ofGraph primitive? config g).resolve backend).outcome = .ok m) :
    g.Acyclic := by
  obtain ⟨⟨paths, walked⟩, _⟩ := resolve_ok_iff.mp returned
  apply acyclic_of_lineages
  intro name listed
  obtain ⟨path, _, computed⟩ := result_of_mem walked listed
  exact ⟨path, chain_ok_iff.mp computed⟩

theorem parents_of_resolve
    (returned : ((Resolver.ofGraph primitive? config g).resolve backend).outcome = .ok m) :
    m.parents = g.nodes.map fun _ node => node.parent := by
  obtain ⟨_, resolutions, _, rfl⟩ := resolve_ok_iff.mp returned
  rfl

/-- The lineage of a class is the class and its ancestors. -/
theorem lineage_of_mem_classes (keyed : g.Keyed)
    (returned : ((Resolver.ofGraph primitive? config g).resolve backend).outcome = .ok m)
    {c : ResolvedClass} (member : c ∈ m.classes) : g.Lineage c.name (c.name :: c.ancestors) := by
  obtain ⟨node, resolution, found, named, resolved, rfl⟩ :=
    resolveNode_of_mem_classes keyed returned member
  obtain ⟨path, _, _, _, _, walked, _, _, _, _, rfl⟩ := Resolver.resolveNode_ok_iff.mp resolved
  have line : g.Lineage node.name path := chain_ok_iff.mp walked
  obtain ⟨rest, rfl⟩ := line.starts (Option.isSome_iff_exists.mpr ⟨node, named ▸ found⟩)
  exact line

theorem children_of_mem_classes (keyed : g.Keyed)
    (returned : ((Resolver.ofGraph primitive? config g).resolve backend).outcome = .ok m)
    {c : ResolvedClass} (member : c ∈ m.classes) : c.children = g.children c.name := by
  obtain ⟨node, resolution, _, named, resolved, rfl⟩ :=
    resolveNode_of_mem_classes keyed returned member
  exact named ▸ (resolveNode_placed resolved).1

theorem hasChildren_of_mem_classes (keyed : g.Keyed)
    (returned : ((Resolver.ofGraph primitive? config g).resolve backend).outcome = .ok m)
    {c : ResolvedClass} (member : c ∈ m.classes) : c.hasChildren = !c.children.isEmpty := by
  obtain ⟨_, resolution, _, _, resolved, rfl⟩ := resolveNode_of_mem_classes keyed returned member
  exact resolveNode_hasChildren resolved

theorem reflects_of_resolve (sound : g.WellFormed)
    (returned : ((Resolver.ofGraph primitive? config g).resolve backend).outcome = .ok m) :
    m.Reflects g := by
  have links := parents_of_resolve returned
  have chained : ∀ {name path}, g.Lineage name path → m.chain? name = some path :=
    fun line => Model.chain?_eq_some_iff.mpr (line.walk_start links sound)
  constructor
  · intro name
    obtain ⟨path, line⟩ := exists_lineage (acyclic_of_resolve returned name)
    exact ⟨path, chain_ok_iff.mpr line, line.walk_start links sound, chained line⟩
  · exact fun c member => chained (lineage_of_mem_classes sound.keyed returned member)
  · intro c member
    obtain ⟨apart, nodup⟩ :=
      List.nodup_cons.mp (lineage_of_mem_classes sound.keyed returned member).nodup
    exact ⟨nodup, apart⟩
  · intro c member
    rw [children_of_mem_classes sound.keyed returned member]
    exact g.children_strict c.name
  · intro c member name
    rw [children_of_mem_classes sound.keyed returned member]
    exact mem_children_iff
  · intro c member
    rw [hasChildren_of_mem_classes sound.keyed returned member]
    simp

/-- The model of a document tells the hierarchy of its graph, whatever is left out of it. -/
theorem resolveDocument_reflects {profile : Profile} {requested : String} {document : Entries}
    (returned : (resolveDocument profile requested config document).outcome = .ok m) :
    ∃ g, (readGraph document).outcome = .ok g ∧ m.Reflects g := by
  obtain ⟨g, read, resolved⟩ := resolve_of_resolveDocument returned
  exact ⟨g, read, reflects_of_resolve (isBuilt_of_readGraph read).wellFormed resolved⟩

/-- Keys below a type that the target language has itself, and that is left out. -/
def keyDocument : Entries :=
  [(.text "types", .map [
    (.text "Key", .map [(.text "type", .text "UUID")]),
    (.text "Id", .scalar .null),
    (.text "UUID", .map [(.text "type", .text "Id")]),
    (.text "Alias", .map [(.text "type", .text "UUID")])])]

/-- The walk for a key passes the type that has no class. -/
theorem resolveDocument_reflects_keys :
    ∃ m g, (resolveDocument Profile.java "" {} keyDocument).outcome = .ok m ∧
      m.class? "UUID" = none ∧ m.chain? "Key" = some ["Key", "UUID", "Id"] ∧
      (readGraph keyDocument).outcome = .ok g ∧ m.Reflects g := by
  have resolved : ∃ m, (resolveDocument Profile.java "" {} keyDocument).outcome = .ok m ∧
      m.class? "UUID" = none ∧ m.chain? "Key" = some ["Key", "UUID", "Id"] :=
    ⟨_, by cbv, by cbv, by cbv⟩
  obtain ⟨m, returned, left, chain⟩ := resolved
  obtain ⟨g, read, reflects⟩ := resolveDocument_reflects returned
  exact ⟨m, g, returned, left, chain, read, reflects⟩

end TypeGraph

end RamlTypes
