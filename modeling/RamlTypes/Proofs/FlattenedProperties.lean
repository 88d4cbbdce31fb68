import RamlTypes.Proofs.EffectiveProperties

/-!
# Flattened properties

Two orders meet where a chain is flattened. A property stands where the type farthest up that
declares its name has put it, and it is the one that the nearest type declares. Both follow from one
step: a type writes its own properties over those of its parent, where old keys keep their place and
new ones come last.
-/
namespace RamlTypes.TypeGraph

variable {g : TypeGraph} {name : String} {path : List String} {node : TypeNode}

/-- The names of the properties that a type declares itself, in their order. -/
def ownNames (g : TypeGraph) (name : String) : List String :=
  match g.node? name with
  | none => []
  | some node => node.properties.values.map (·.name)

/-- Of the types in a list, the first one that declares the key declares the property under it. -/
def IsNearest (g : TypeGraph) (path : List String) (key : String) (p : Property) : Prop :=
  ∃ nearer owner farther node, path = nearer ++ owner :: farther ∧
    g.node? owner = some node ∧ (key, p) ∈ node.properties.entries ∧
    ∀ other ∈ nearer, ¬ g.Declares other key

theorem Keyed.ownNames_eq (keyed : g.Keyed) (found : g.node? name = some node) :
    g.ownNames name = node.properties.keys := by
  have named := keyed.property _ (node?_eq_some_iff.mp found)
  rw [ownNames, found, Table.keys]
  simp only [Table.values, List.map_map]
  exact List.map_congr_left named

/-! ### One type more -/

theorem isNearest_cons (found : g.node? name = some node) {key : String} {p : Property} :
    g.IsNearest (name :: path) key p ↔
      node.properties.find? key = some p ∨
        node.properties.find? key = none ∧ g.IsNearest path key p := by
  rw [Table.find?_eq_some_iff, Table.find?, Table.lookup_eq_none_iff]
  constructor
  · rintro ⟨nearer, owner, farther, node', split, found', declared, skipped⟩
    rcases List.cons_eq_append_iff.mp split with ⟨rfl, here⟩ | ⟨nearer', rfl, rest⟩
    · cases here
      cases found.symm.trans found'
      exact .inl declared
    · have silent : key ∉ node.properties.keys :=
        fun listed => skipped name List.mem_cons_self ⟨node, found, listed⟩
      exact .inr ⟨silent, nearer', owner, farther, node', rest, found', declared,
        fun other member => skipped other (List.mem_cons_of_mem _ member)⟩
  · rintro (declared | ⟨silent, nearer, owner, farther, node', rfl, found', declared, skipped⟩)
    · exact ⟨[], name, path, node, rfl, found, declared, by simp⟩
    · refine ⟨name :: nearer, owner, farther, node', rfl, found', declared, ?_⟩
      intro other member
      rcases List.mem_cons.mp member with rfl | behind
      · rintro ⟨node'', found'', listed⟩
        cases found.symm.trans found''
        exact silent listed
      · exact skipped other behind

/-! ### Flattening -/

/-- The keys are the names that are declared from the root on, each where it comes first. -/
theorem keys_of_flatten (keyed : g.Keyed) (declared : ∀ owner ∈ path, g.isDeclared owner = true)
    {properties : Table String Property} (flat : g.flatten path = .ok properties) :
    properties.keys = (path.reverse.flatMap g.ownNames).eraseDups := by
  -- By induction from the root down, since a type is written over its parent.
  induction path generalizing properties with
  | nil =>
    cases flat
    rfl
  | cons name path ih =>
    obtain ⟨node, found⟩ := Option.isSome_iff_exists.mp (declared name List.mem_cons_self)
    rw [flatten_cons found, map_ok_iff] at flat
    obtain ⟨inherited, above, rfl⟩ := flat
    have higher := ih (fun owner member => declared owner (List.mem_cons_of_mem _ member)) above
    have own : (g.ownNames name).eraseDups = node.properties.keys := by
      rw [keyed.ownNames_eq found]
      exact eraseDups_of_nodup node.properties.nodup
    rw [Table.keys_insertAll node.properties.nodup, higher, List.reverse_cons,
      List.flatMap_append, List.flatMap_singleton, List.eraseDups_append, List.removeAll,
      ← filter_eraseDups, own]
    simp only [List.mem_eraseDups, Table.keys, List.elem_eq_mem, decide_not]

/-- What stands under a key is what the nearest type declares there. -/
theorem find?_of_flatten (declared : ∀ owner ∈ path, g.isDeclared owner = true)
    {properties : Table String Property} (flat : g.flatten path = .ok properties) {key : String}
    {p : Property} : properties.find? key = some p ↔ g.IsNearest path key p := by
  induction path generalizing properties with
  | nil =>
    cases flat
    simp [IsNearest, Table.find?, Table.empty]
  | cons name path ih =>
    obtain ⟨node, found⟩ := Option.isSome_iff_exists.mp (declared name List.mem_cons_self)
    rw [flatten_cons found, map_ok_iff] at flat
    obtain ⟨inherited, above, rfl⟩ := flat
    have higher := ih (fun owner member => declared owner (List.mem_cons_of_mem _ member)) above
    rw [Table.find?_insertAll node.properties.nodup, Option.or_eq_some_iff, higher,
      isNearest_cons found]
    rfl

/-- The effective properties of a type stand in the order in which their names are first declared
from the root of its chain down, and each is the one that is declared nearest to the type. They are
those of its parent with its own ones written over them. -/
theorem effectiveProperties_nearest (built : g.IsBuilt)
    (walked : g.hierarchy.chain name = .ok path) :
    ∃ properties, g.hierarchy.effectiveProperties name = .ok properties ∧
      properties.keys = (path.reverse.flatMap g.ownNames).eraseDups ∧
      (∀ key p, properties.find? key = some p ↔ g.IsNearest path key p) ∧
      (∀ key p, properties.find? key = some p → p.name = key) ∧
      ∀ parent, path[1]? = some parent → ∃ node inherited, g.node? name = some node ∧
        g.hierarchy.effectiveProperties parent = .ok inherited ∧
        properties.entries = Table.overwritten inherited.entries node.properties.entries := by
  have keyed := built.wellFormed.keyed
  have line : g.Lineage name path := chain_ok_iff.mp walked
  obtain ⟨properties, flat, _⟩ := line.flatten_returns
  have effective := line.effectiveProperties_eq.trans flat
  refine ⟨properties, effective, keys_of_flatten keyed line.declared flat,
    fun key p => find?_of_flatten line.declared flat,
    fun key p found => IsEffective.keyed ⟨properties, effective, found⟩ keyed, ?_⟩
  intro parent second
  cases line with
  | undeclared | root => simp at second
  | @child _ above path declared up rest =>
    obtain ⟨node, found, _⟩ := Option.bind_eq_some_iff.mp up
    have parented : g.isDeclared above = true := built.wellFormed.parent_declared up
    obtain ⟨farther, rfl⟩ := rest.starts parented
    cases second
    rw [flatten_cons found, map_ok_iff] at flat
    obtain ⟨inherited, flat', rfl⟩ := flat
    exact ⟨node, inherited, found, rest.effectiveProperties_eq.trans flat',
      Table.entries_insertAll node.properties.nodup⟩

/-! ### Kittens -/

/-- A property that is declared by its type alone. -/
def plainProperty (name type : String) : Property := ⟨name, .named type type "", true, [], none, ""⟩

/-- Kittens are cats and cats are animals. All of them declare a name, which is a number for
kittens. -/
def animalGraph : TypeGraph where
  title := ""
  nodes := ⟨[
    ("Kitten", objectNode "Kitten" (some "Cat")
      ⟨[("name", plainProperty "name" "integer")], by simp⟩),
    ("Cat", objectNode "Cat" (some "Animal")
      ⟨[("lives", plainProperty "lives" "integer"), ("name", plainProperty "name" "string")],
        by simp⟩),
    ("Animal", objectNode "Animal" none
      ⟨[("name", plainProperty "name" "string"), ("age", plainProperty "age" "integer")],
        by simp⟩)], by simp⟩
  resources := []

theorem animalGraph_isBuilt : animalGraph.IsBuilt := by
  refine ⟨⟨"", ⟨[
    ("Kitten", objectDecl (some "Cat") [("name", .text "integer")]),
    ("Cat", objectDecl (some "Animal") [("lives", .text "integer"), ("name", .text "string")]),
    ("Animal", objectDecl none [("name", .text "string"), ("age", .text "integer")])],
    by simp⟩, []⟩, ?_⟩
  cbv

/-- The name of a kitten stands first, where the animal has it, and is the number of the kitten. -/
theorem effectiveProperties_nearest_kitten :
    animalGraph.IsBuilt ∧
      animalGraph.hierarchy.chain "Kitten" = .ok ["Kitten", "Cat", "Animal"] ∧
      ∃ properties, animalGraph.hierarchy.effectiveProperties "Kitten" = .ok properties ∧
        properties.keys = ["name", "age", "lives"] ∧
        properties.find? "name" = some (plainProperty "name" "integer") := by
  have walked : animalGraph.hierarchy.chain "Kitten" = .ok ["Kitten", "Cat", "Animal"] := by cbv
  obtain ⟨properties, effective, ordered, nearest, _⟩ :=
    effectiveProperties_nearest animalGraph_isBuilt walked
  refine ⟨animalGraph_isBuilt, walked, properties, effective, ordered.trans (by cbv), ?_⟩
  exact (nearest _ _).mpr ⟨[], "Kitten", _, _, rfl, rfl, List.mem_cons_self, by simp⟩

end RamlTypes.TypeGraph
