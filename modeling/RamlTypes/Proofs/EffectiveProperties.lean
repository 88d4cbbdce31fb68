import RamlTypes.Proofs.Chains

/-!
# Effective properties

A type has the properties that are declared along its chain. Flattening a chain never fails, and
whatever it gives was declared by a type of the chain under its own name. A property is left to an
ancestor exactly when the parent has an effective property of its name with the same text.
-/
namespace RamlTypes

namespace TypeGraph

variable {g : TypeGraph} {name : String} {path : List String}

/-- A property that a type has under a key, its own or an inherited one. -/
def IsEffective (g : TypeGraph) (name key : String) (property : Property) : Prop :=
  ∃ properties, g.hierarchy.effectiveProperties name = .ok properties ∧
    properties.find? key = some property

theorem IsEffective.unique {key : String} {p q : Property} (first : g.IsEffective name key p)
    (second : g.IsEffective name key q) : p = q := by
  obtain ⟨properties, flat, found⟩ := first
  obtain ⟨properties', flat', found'⟩ := second
  cases flat.symm.trans flat'
  exact Option.some.inj (found.symm.trans found')

/-- Some type of a list declares the property under the key. -/
def IsDeclaredBy (g : TypeGraph) (owners : List String) (entry : String × Property) : Prop :=
  ∃ owner ∈ owners, ∃ node, g.node? owner = some node ∧ entry ∈ node.properties.entries

theorem writeProperties_returns (written : Table String Property) {names : List String}
    (declared : ∀ name ∈ names, g.isDeclared name = true) :
    ∃ properties, g.writeProperties written names = .ok properties ∧
      ∀ entry ∈ properties.entries, entry ∈ written.entries ∨ g.IsDeclaredBy names entry := by
  induction names generalizing written with
  | nil => exact ⟨written, rfl, fun entry member => .inl member⟩
  | cons name rest ih =>
    obtain ⟨node, found⟩ := Option.isSome_iff_exists.mp (declared name (by simp))
    obtain ⟨properties, returned, origin⟩ :=
      ih (written.insertAll node.properties.entries)
        fun name' member => declared name' (by simp [member])
    refine ⟨properties, by simpa [writeProperties, node?, found] using returned, ?_⟩
    intro entry member
    -- An entry that is there after the first type was written is an old one or its own.
    rcases origin entry member with here | ⟨owner, listed, node', found', inside⟩
    · have either : entry ∈ written.entries ∨ g.IsDeclaredBy (name :: rest) entry := by
        refine Table.forall_mem_insertAll (fun entry old => Or.inl old) ?_ entry here
        exact fun entry inside => .inr ⟨name, by simp, node, found, inside⟩
      exact either
    · exact .inr ⟨owner, by simp [listed], node', found', inside⟩

theorem Lineage.effectiveProperties_eq (line : g.Lineage name path) :
    g.hierarchy.effectiveProperties name = g.flatten path := by
  simp [Hierarchy.effectiveProperties, hierarchy, chain_ok_iff.mpr line, bind, Except.bind]

/-- Flattening a lineage returns, and only what the types of the lineage declare. -/
theorem Lineage.flatten_returns (line : g.Lineage name path) :
    ∃ properties, g.flatten path = .ok properties ∧
      ∀ entry ∈ properties.entries, g.IsDeclaredBy path entry := by
  have declared : ∀ passed ∈ path.reverse, g.isDeclared passed = true :=
    fun passed member => line.declared passed (List.mem_reverse.mp member)
  obtain ⟨properties, returned, origin⟩ := writeProperties_returns .empty declared
  refine ⟨properties, returned, fun entry member => ?_⟩
  rcases origin entry member with old | ⟨owner, listed, declares⟩
  · simp [Table.empty] at old
  · exact ⟨owner, List.mem_reverse.mp listed, declares⟩

/-- What is flattened stands under its own name. -/
theorem Lineage.flatten_named (line : g.Lineage name path) (keyed : g.Keyed)
    {properties : Table String Property} (flat : g.flatten path = .ok properties) :
    ∀ entry ∈ properties.entries, entry.2.name = entry.1 := by
  obtain ⟨properties', flat', origin⟩ := line.flatten_returns
  cases flat.symm.trans flat'
  intro entry member
  obtain ⟨owner, _, node, found, declared⟩ := origin entry member
  exact keyed.property _ (node?_eq_some_iff.mp found) entry declared

theorem effectiveProperties_returns (simple : ¬ g.Revisits name) :
    ∃ properties, g.hierarchy.effectiveProperties name = .ok properties := by
  obtain ⟨path, line⟩ := exists_lineage simple
  obtain ⟨properties, flat, _⟩ := line.flatten_returns
  exact ⟨properties, line.effectiveProperties_eq.trans flat⟩

/-- An effective property is one that a declared type was built with. -/
theorem IsEffective.declaredBy {key : String} {p : Property}
    (effective : g.IsEffective name key p) :
    ∃ owners, g.IsDeclaredBy owners (key, p) := by
  obtain ⟨properties, flat, found⟩ := effective
  obtain ⟨path, computed, merged⟩ := (bind_ok_iff _ _ _).mp flat
  have line : g.Lineage name path := chain_ok_iff.mp computed
  obtain ⟨properties', returned, origin⟩ := line.flatten_returns
  cases merged.symm.trans returned
  exact ⟨path, origin _ ((Table.find?_eq_some_iff _ _ _).mp found)⟩

theorem IsEffective.keyed {key : String} {p : Property} (effective : g.IsEffective name key p)
    (keyed : g.Keyed) : p.name = key := by
  obtain ⟨_, owner, _, node, found, declared⟩ := effective.declaredBy
  exact keyed.property _ (node?_eq_some_iff.mp found) _ declared

theorem IsEffective.named {key : String} {p : Property} (effective : g.IsEffective name key p)
    (sound : g.WellFormed) : p.name = key :=
  effective.keyed sound.keyed

theorem IsEffective.hasType {key : String} {p : Property} (effective : g.IsEffective name key p) :
    g.HasType p.type := by
  obtain ⟨_, owner, _, node, found, declared⟩ := effective.declaredBy
  exact .property (node?_eq_some_iff.mp found) declared

theorem IsEffective.parsed {key : String} {p : Property} (effective : g.IsEffective name key p)
    (sound : g.WellFormed) : p.type.IsParsed :=
  sound.parsed _ effective.hasType

/-! ### Inheritance -/

theorem writeProperties_append (written : Table String Property) (first second : List String) :
    g.writeProperties written (first ++ second) =
      g.writeProperties written first >>= fun merged => g.writeProperties merged second := by
  induction first generalizing written with
  | nil => rfl
  | cons name rest ih =>
    rw [List.cons_append, writeProperties, writeProperties]
    cases g.node? name with
    | none => rfl
    | some node => exact ih _

/-- A type is flattened by writing its own properties over those of its parent. -/
theorem flatten_cons {node : TypeNode} (found : g.node? name = some node) (path : List String) :
    g.flatten (name :: path) = (·.insertAll node.properties.entries) <$> g.flatten path := by
  rw [flatten, List.reverse_cons, writeProperties_append, flatten, ← bind_pure_comp]
  simp only [writeProperties, found]
  rfl

/-- The type declares a property under the key itself. -/
def Declares (g : TypeGraph) (name key : String) : Prop :=
  ∃ node, g.node? name = some node ∧ key ∈ node.properties.keys

/-- What a type does not declare itself is the same property on its parent. -/
theorem isEffective_parent_iff {parent key : String} {p : Property}
    (up : g.parent? name = some parent) (undeclared : ¬ g.Declares name key) :
    g.IsEffective name key p ↔ g.IsEffective parent key p := by
  obtain ⟨node, found, _⟩ := Option.bind_eq_some_iff.mp up
  have declared : g.isDeclared name = true := (Table.contains_iff _ _).mpr
    (Table.mem_keys_of_find? found)
  have absent : key ∉ node.properties.entries.map Prod.fst :=
    fun listed => undeclared ⟨node, found, listed⟩
  -- Writing the own properties leaves what is under the key.
  have below {path : List String} (rest : g.Lineage parent path) :
      g.hierarchy.effectiveProperties name =
        (·.insertAll node.properties.entries) <$> g.flatten path := by
    rw [(Lineage.child declared up rest).effectiveProperties_eq, flatten_cons found]
  constructor
  · rintro ⟨properties, flat, present⟩
    obtain ⟨path, walked, _⟩ := (bind_ok_iff _ _ _).mp flat
    cases chain_ok_iff.mp walked with
    | undeclared missing => simp [declared] at missing
    | root _ top => simp [up] at top
    | child _ up' rest =>
      cases up.symm.trans up'
      rw [below rest, map_ok_iff] at flat
      obtain ⟨inherited, flat', rfl⟩ := flat
      rw [Table.find?_insertAll_of_not_mem absent] at present
      exact ⟨inherited, rest.effectiveProperties_eq.trans flat', present⟩
  · rintro ⟨inherited, flat, present⟩
    obtain ⟨path, walked, flat'⟩ := (bind_ok_iff _ _ _).mp flat
    refine ⟨inherited.insertAll node.properties.entries, ?_, ?_⟩
    · rw [below (chain_ok_iff.mp walked), map_ok_iff]
      exact ⟨inherited, flat', rfl⟩
    · rw [Table.find?_insertAll_of_not_mem absent, present]

/-! ### Membership -/

/-- A type leaves a property to its parent exactly when the property is no enum and the parent has
one of the same name and text. -/
theorem isMember_eq_false_iff {p : Property} :
    g.hierarchy.isMember name p = .ok false ↔
      p.isEnum = false ∧ ∃ parent inherited, g.parent? name = some parent ∧
        g.IsEffective parent p.name inherited ∧ inherited.type.raw = p.type.raw := by
  simp only [Hierarchy.isMember, hierarchy]
  cases up : g.parent? name with
  | none => simp
  | some parent =>
    cases isEnum : p.isEnum with
    | true => simp
    | false =>
      simp only [Bool.false_eq_true, if_false, bind_ok_iff, IsEffective, true_and,
        Option.some.injEq, hierarchy]
      constructor
      · rintro ⟨properties, flat, kept⟩
        -- Without a property of the name above, the property is a member.
        cases found : properties.find? p.name with
        | none =>
          rw [found] at kept
          cases kept
        | some inherited =>
          rw [found] at kept
          have same : inherited.type.raw = p.type.raw := by simpa [pure, Except.pure] using kept
          exact ⟨parent, inherited, rfl, ⟨properties, flat, found⟩, same⟩
      · rintro ⟨_, inherited, rfl, ⟨properties, flat, found⟩, same⟩
        exact ⟨properties, flat, by simp [found, same, pure, Except.pure]⟩

theorem isMember_of_isEnum {p : Property} (enum : p.isEnum = true) (name : String) :
    g.hierarchy.isMember name p = .ok true := by
  simp only [Hierarchy.isMember, enum, if_true]
  split <;> rfl

theorem isMember_returns (acyclic : g.Acyclic) (name : String) (p : Property) :
    ∃ kept, g.hierarchy.isMember name p = .ok kept := by
  simp only [Hierarchy.isMember, hierarchy]
  split
  · exact ⟨true, rfl⟩
  · split
    · exact ⟨true, rfl⟩
    next parent _ _ =>
      -- The only step that can fail is the chain of the parent.
      obtain ⟨properties, flat⟩ := effectiveProperties_returns (acyclic parent)
      simp only [hierarchy] at flat
      simp only [flat, bind, Except.bind]
      split <;> exact ⟨_, rfl⟩

/-! ### Orders -/

/-- A `kind` that is a string, or an enum of strings. -/
def orderKind (literals : Option (List Value)) : Property where
  name := "kind"
  type := .named "string" "string" ""
  required := true
  children := []
  literals
  description := ""

/-- Orders have a kind that is an enum; purchases are orders that declare it as plain text. -/
def orderGraph (literal : Value) : TypeGraph where
  title := ""
  nodes := ⟨[
    ("Order", objectNode "Order" none ⟨[("kind", orderKind (some [literal]))], by simp⟩),
    ("Purchase", objectNode "Purchase" (some "Order") ⟨[("kind", orderKind none)], by simp⟩)],
    by simp⟩
  resources := []

variable (literal : Value)

theorem orderGraph_isBuilt : (orderGraph literal).IsBuilt := by
  refine ⟨⟨"", ⟨[
    ("Order", objectDecl none
      [("kind", .map [(.text "type", .text "string"), (.text "enum", .list [literal])])]),
    ("Purchase", objectDecl (some "Order") [("kind", .text "string")])], by simp⟩, []⟩, ?_⟩
  cbv

theorem mem_orderGraph_names {listed : String} :
    listed ∈ (orderGraph literal).names ↔ listed = "Order" ∨ listed = "Purchase" := by
  simp [orderGraph, names, Table.keys]

theorem orderGraph_acyclic : (orderGraph literal).Acyclic := by
  have order : (orderGraph literal).Lineage "Order" ["Order"] := .root rfl rfl
  have purchase : (orderGraph literal).Lineage "Purchase" ["Purchase", "Order"] :=
    .child rfl rfl order
  apply acyclic_of_lineages
  intro name listed
  rcases (mem_orderGraph_names literal).mp listed with rfl | rfl
  · exact ⟨_, order⟩
  · exact ⟨_, purchase⟩

theorem isEffective_order {key : String} {p : Property} :
    (orderGraph literal).IsEffective "Order" key p ↔
      key = "kind" ∧ p = orderKind (some [literal]) := by
  have flat : (orderGraph literal).hierarchy.effectiveProperties "Order" =
      .ok ⟨[("kind", orderKind (some [literal]))], by simp⟩ := by
    cbv
  simp [IsEffective, flat, Table.find?_eq_some_iff]

theorem isEffective_purchase {key : String} {p : Property} :
    (orderGraph literal).IsEffective "Purchase" key p ↔ key = "kind" ∧ p = orderKind none := by
  have flat : (orderGraph literal).hierarchy.effectiveProperties "Purchase" =
      .ok ⟨[("kind", orderKind none)], by simp⟩ := by
    cbv
  simp [IsEffective, flat, Table.find?_eq_some_iff]

end TypeGraph

end RamlTypes
