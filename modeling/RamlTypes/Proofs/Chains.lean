import Mathlib
import RamlTypes.Proofs.Graphs

/-!
# Walks up the inheritance links

Following parents from a name either passes a finite lineage of distinct names or comes back to a
name already passed. A chain is computed exactly for the names of the first kind, and it is their
lineage; for the others the computation ends with a cycle. So chains never depend on the order in
which a graph declares its types.
-/
namespace RamlTypes.TypeGraph

variable {g : TypeGraph} {name parent : String} {path : List String}

/-- The name reached from a name by following so many parents, if there are as many. -/
def climb (g : TypeGraph) (name : String) : Nat → Option String
  | 0 => some name
  | steps + 1 => (g.parent? name).bind fun parent => g.climb parent steps

/-- Following parents from a name comes back to a name already passed. -/
def Revisits (g : TypeGraph) (name : String) : Prop :=
  ∃ earlier later reached, earlier < later ∧
    g.climb name earlier = some reached ∧ g.climb name later = some reached

/-- No walk in the graph comes back to a name. -/
def Acyclic (g : TypeGraph) : Prop := ∀ name, ¬ g.Revisits name

/-- One name is reached from another by following one or more parents. -/
def IsAncestor (g : TypeGraph) (ancestor name : String) : Prop :=
  ∃ steps, g.climb name (steps + 1) = some ancestor

/-- The declared names from a name up to one without a declared parent. -/
inductive Lineage (g : TypeGraph) : String → List String → Prop where
  | undeclared {name : String} (absent : g.isDeclared name = false) : Lineage g name []
  | root {name : String} (declared : g.isDeclared name = true) (top : g.parent? name = none) :
      Lineage g name [name]
  | child {name parent : String} {path : List String} (declared : g.isDeclared name = true)
      (up : g.parent? name = some parent) (rest : Lineage g parent path) :
      Lineage g name (name :: path)

/-! ### Climbing -/

theorem climb_succ_of_root (top : g.parent? name = none) (steps : Nat) :
    g.climb name (steps + 1) = none := by
  simp [climb, top]

theorem climb_succ_of_parent (up : g.parent? name = some parent) (steps : Nat) :
    g.climb name (steps + 1) = g.climb parent steps := by
  simp [climb, up]

theorem climb_add (g : TypeGraph) (name : String) (first second : Nat) :
    g.climb name (first + second) =
      (g.climb name first).bind fun reached => g.climb reached second := by
  -- On the first part of the walk, whose first step is the first step of the whole.
  induction first generalizing name with
  | zero => simp [climb]
  | succ first ih =>
    rw [Nat.add_right_comm]
    cases up : g.parent? name with
    | none => simp [climb_succ_of_root up]
    | some parent => rw [climb_succ_of_parent up, climb_succ_of_parent up, ih]

theorem node?_of_undeclared (absent : g.isDeclared name = false) : g.node? name = none := by
  simpa [isDeclared, Table.contains, node?] using absent

theorem parent?_of_undeclared (absent : g.isDeclared name = false) : g.parent? name = none := by
  simp [parent?, node?_of_undeclared absent]

theorem IsAncestor.trans {low middle high : String} (second : g.IsAncestor high middle)
    (first : g.IsAncestor middle low) : g.IsAncestor high low := by
  obtain ⟨steps, reached⟩ := first
  obtain ⟨steps', reached'⟩ := second
  refine ⟨steps + 1 + steps', ?_⟩
  rw [Nat.add_assoc, climb_add, reached]
  exact reached'

/-! ### Walks that come back -/

theorem not_revisits_of_root (top : g.parent? name = none) : ¬ g.Revisits name := by
  rintro ⟨earlier, later, reached, before, _, again⟩
  obtain ⟨steps, rfl⟩ := Nat.exists_eq_succ_of_ne_zero (Nat.ne_zero_of_lt before)
  simp [climb_succ_of_root top] at again

/-- A walk that comes back can start one parent higher as well. -/
theorem Revisits.of_parent (up : g.parent? name = some parent) (circle : g.Revisits name) :
    g.Revisits parent := by
  obtain ⟨earlier, later, reached, before, once, again⟩ := circle
  obtain ⟨later, rfl⟩ := Nat.exists_eq_succ_of_ne_zero (Nat.ne_zero_of_lt before)
  rw [Nat.succ_eq_add_one, climb_succ_of_parent up] at again
  cases earlier with
  | zero =>
    -- The walk is back at its start, one step below the parent.
    have same : name = reached := by simpa [climb] using once
    have circled : g.climb parent (later + 1) = some parent := by
      rw [climb_add, again, ← same]
      simp [climb, up]
    exact ⟨0, later + 1, parent, by omega, rfl, circled⟩
  | succ earlier =>
    -- Both visits lie behind the first step.
    rw [climb_succ_of_parent up] at once
    exact ⟨earlier, later, reached, by omega, once, again⟩

theorem Lineage.not_revisits (line : g.Lineage name path) : ¬ g.Revisits name := by
  induction line with
  | undeclared absent => exact not_revisits_of_root (parent?_of_undeclared absent)
  | root _ top => exact not_revisits_of_root top
  | child _ up _ ih => exact fun circle => ih (circle.of_parent up)

/-! ### Lineages -/

theorem Lineage.unique {other : List String} (line : g.Lineage name path)
    (line' : g.Lineage name other) : path = other := by
  induction line generalizing other with
  | undeclared absent =>
    cases line' with
    | undeclared => rfl
    | root declared | child declared => simp [absent] at declared
  | root declared top =>
    cases line' with
    | undeclared absent => simp [declared] at absent
    | root => rfl
    | child _ up => simp [top] at up
  | child declared up _ ih =>
    cases line' with
    | undeclared absent => simp [declared] at absent
    | root _ top => simp [up] at top
    | child _ up' rest =>
      rw [up] at up'
      cases up'
      rw [ih rest]

theorem Lineage.declared (line : g.Lineage name path) :
    ∀ passed ∈ path, g.isDeclared passed = true := by
  induction line with
  | undeclared => simp
  | root declared _ => simpa using declared
  | child declared _ _ ih => simpa using ⟨declared, ih⟩

theorem Lineage.starts (line : g.Lineage name path) (declared : g.isDeclared name = true) :
    ∃ rest, path = name :: rest := by
  cases line with
  | undeclared absent => simp [declared] at absent
  | root => exact ⟨[], rfl⟩
  | child => exact ⟨_, rfl⟩

/-- The part of a lineage from one of its names on is the lineage of that name. -/
theorem Lineage.from_mem {passed : String} (line : g.Lineage name path) (member : passed ∈ path) :
    ∃ before after, path = before ++ passed :: after ∧ g.Lineage passed (passed :: after) := by
  induction line with
  | undeclared => simp at member
  | @root name declared top =>
    cases List.mem_singleton.mp member
    exact ⟨[], [], rfl, .root declared top⟩
  | @child name parent path declared up rest ih =>
    rcases List.mem_cons.mp member with rfl | later
    · exact ⟨[], path, rfl, .child declared up rest⟩
    · obtain ⟨before, after, rfl, line⟩ := ih later
      exact ⟨name :: before, after, rfl, line⟩

theorem Lineage.nodup (line : g.Lineage name path) : path.Nodup := by
  induction line with
  | undeclared => exact .nil
  | root => simp
  | @child name parent path declared up rest ih =>
    refine List.nodup_cons.mpr ⟨fun member => ?_, ih⟩
    -- If the name came again, the part from there on would be the whole, which is longer.
    obtain ⟨before, after, split, line⟩ := rest.from_mem member
    have same := line.unique (.child declared up rest)
    have longer := congrArg List.length split
    simp only [List.cons.injEq, true_and] at same
    simp only [same, List.length_append, List.length_cons] at longer
    omega

/-- Climbing from a declared name passes its lineage, where all parents are declared. -/
theorem Lineage.getElem?_eq_climb (line : g.Lineage name path) (sound : g.WellFormed)
    (declared : g.isDeclared name = true) (steps : Nat) : path[steps]? = g.climb name steps := by
  -- Each parent is declared, so the lineage does not end before the walk does.
  induction line generalizing steps with
  | undeclared absent => simp [declared] at absent
  | root _ top => cases steps <;> simp [climb, top]
  | child _ up _ ih =>
    cases steps with
    | zero => rfl
    | succ steps =>
      rw [climb_succ_of_parent up, List.getElem?_cons_succ]
      exact ih (sound.parent_declared up) steps

theorem Lineage.getElem?_tail (line : g.Lineage name path) (sound : g.WellFormed) (steps : Nat) :
    path.tail[steps]? = g.climb name (steps + 1) := by
  cases declared : g.isDeclared name with
  | true => rw [← line.getElem?_eq_climb sound declared, List.getElem?_tail]
  | false =>
    -- There is nothing to climb to, and the lineage is empty.
    cases line.unique (.undeclared declared)
    simp [climb_succ_of_root (parent?_of_undeclared declared)]

theorem Lineage.mem_tail_iff {ancestor : String} (line : g.Lineage name path)
    (sound : g.WellFormed) : ancestor ∈ path.tail ↔ g.IsAncestor ancestor name := by
  simp only [List.mem_iff_getElem?, line.getElem?_tail sound, IsAncestor]

/-! ### Computed chains -/

private theorem lineage_of_chainFrom {passed chain : List String}
    (returned : g.chainFrom passed name = .ok chain) :
    ∃ path, chain = passed ++ path ∧ g.Lineage name path := by
  -- The names passed before stay in front, and the rest of the walk is the lineage.
  fun_induction chainFrom g passed name with
  | case1 => simp at returned
  | case2 passed name declared fresh top =>
    cases returned
    exact ⟨[name], rfl, .root declared top⟩
  | case3 passed name declared fresh parent up ih =>
    obtain ⟨path, rfl, line⟩ := ih returned
    exact ⟨name :: path, by simp, .child declared up line⟩
  | case4 passed name absent =>
    cases returned
    exact ⟨[], by simp, .undeclared (by simpa using absent)⟩

private theorem chainFrom_of_lineage {passed : List String} (line : g.Lineage name path)
    (fresh : ∀ next ∈ path, next ∉ passed) : g.chainFrom passed name = .ok (passed ++ path) := by
  induction line generalizing passed with
  | undeclared absent =>
    rw [chainFrom]
    simp [absent]
  | root declared top =>
    rw [chainFrom]
    simp [declared, top, fresh]
  | @child name parent path declared up rest ih =>
    -- A lineage has no repetitions, so what is ahead stays clear of what is passed.
    have apart : name ∉ path := (List.nodup_cons.mp (Lineage.child declared up rest).nodup).1
    have fresh' : ∀ next ∈ path, next ∉ passed ++ [name] := by
      intro next member
      have old := fresh next (by simp [member])
      have distinct : next ≠ name := fun same => apart (same ▸ member)
      simp [old, distinct]
    have next := ih fresh'
    rw [chainFrom]
    simp [declared, up, fresh, next]

/-- A walk that fails has come back to a name: what it has passed are the names reached from its
start, and the name that it meets is one of them. -/
private theorem revisits_of_chainFrom_error {start : String} {passed : List String} {fault : Fault}
    (walked : ∀ steps < passed.length, g.climb start steps = passed[steps]?)
    (here : g.climb start passed.length = some name)
    (failed : g.chainFrom passed name = .error fault) :
    (∃ cycle, fault = .cycle cycle) ∧ g.Revisits start := by
  fun_induction chainFrom g passed name with
  | case1 passed name declared repeated =>
    cases failed
    -- The name was passed some steps ago and is reached again here.
    obtain ⟨steps, found⟩ := List.mem_iff_getElem?.mp repeated
    have before : steps < passed.length := (List.getElem?_eq_some_iff.mp found).1
    exact ⟨⟨_, rfl⟩, steps, passed.length, name, before, (walked steps before).trans found, here⟩
  | case2 => simp at failed
  | case3 passed name declared fresh parent up ih =>
    -- The name joins the passed ones, and the parent is reached one step later.
    apply ih _ _ failed
    · intro steps before
      rcases Nat.lt_or_eq_of_le (Nat.le_of_lt_succ (by simpa using before)) with earlier | rfl
      · rw [walked steps earlier, List.getElem?_append_left earlier]
      · rw [here]
        simp
    · rw [List.length_append, List.length_singleton, climb_add, here]
      simp [climb, up]
  | case4 => simp at failed

/-- A chain is computed exactly where there is a lineage, and is that lineage. -/
theorem chain_ok_iff : g.chain name = .ok path ↔ g.Lineage name path := by
  constructor
  · intro returned
    obtain ⟨path', rfl, line⟩ := lineage_of_chainFrom returned
    exact line
  · intro line
    exact chainFrom_of_lineage line (by simp)

/-- A chain that is not computed has a cycle, and nothing else goes wrong. -/
theorem chain_error {fault : Fault} (failed : g.chain name = .error fault) :
    (∃ cycle, fault = .cycle cycle) ∧ g.Revisits name :=
  revisits_of_chainFrom_error (by simp) rfl failed

theorem exists_lineage (simple : ¬ g.Revisits name) : ∃ path, g.Lineage name path := by
  cases computed : g.chain name with
  | error fault => exact absurd (chain_error computed).2 simple
  | ok path => exact ⟨path, chain_ok_iff.mp computed⟩

theorem acyclic_of_names (simple : ∀ name ∈ g.names, ¬ g.Revisits name) : g.Acyclic := by
  intro name
  cases declared : g.isDeclared name with
  | true => exact simple name ((Table.contains_iff g.nodes name).mp declared)
  -- A name that is not declared has no parent to go to.
  | false => exact not_revisits_of_root (parent?_of_undeclared declared)

theorem acyclic_of_lineages (lines : ∀ name ∈ g.names, ∃ path, g.Lineage name path) :
    g.Acyclic := by
  apply acyclic_of_names
  intro name listed
  obtain ⟨path, line⟩ := lines name listed
  exact line.not_revisits

/-! ### Pets -/

/-- A type with the given parent, if it has one, and the given properties. -/
def objectNode (name : String) (parent : Option String) (properties : Table String Property) :
    TypeNode where
  name
  kind := .object
  parent
  type := .named (parent.getD "object") (parent.getD "object") ""
  properties
  literals := none
  description := ""

/-- The declaration of such a type. -/
def objectDecl (parent : Option String) (properties : List (String × Value)) : TypeDecl :=
  ⟨parent, none, .ofList properties, none, ""⟩

/-- An `age` that is an integer. -/
def petAge : Table String Property :=
  ⟨[("age", ⟨"age", .named "integer" "integer" "", true, [], none, ""⟩)], by simp⟩

/-- Cats and dogs are pets with an age, and puppies are dogs that declare it again. -/
def petGraph : TypeGraph where
  title := ""
  nodes := ⟨[
    ("Puppy", objectNode "Puppy" (some "Dog") petAge),
    ("Cat", objectNode "Cat" (some "Pet") .empty),
    ("Dog", objectNode "Dog" (some "Pet") .empty),
    ("Pet", objectNode "Pet" none petAge)], by simp⟩
  resources := []

theorem petGraph_isBuilt : petGraph.IsBuilt := by
  refine ⟨⟨"", ⟨[
    ("Puppy", objectDecl (some "Dog") [("age", .text "integer")]),
    ("Cat", objectDecl (some "Pet") []),
    ("Dog", objectDecl (some "Pet") []),
    ("Pet", objectDecl none [("age", .text "integer")])], by simp⟩, []⟩, ?_⟩
  cbv

theorem petGraph_acyclic : petGraph.Acyclic := by
  have pet : petGraph.Lineage "Pet" ["Pet"] := .root (by decide) (by decide)
  have dog : petGraph.Lineage "Dog" ["Dog", "Pet"] := .child (by decide) (by decide) pet
  have cat : petGraph.Lineage "Cat" ["Cat", "Pet"] := .child (by decide) (by decide) pet
  have puppy : petGraph.Lineage "Puppy" ["Puppy", "Dog", "Pet"] :=
    .child (by decide) (by decide) dog
  apply acyclic_of_lineages
  intro name listed
  have known : name = "Puppy" ∨ name = "Cat" ∨ name = "Dog" ∨ name = "Pet" := by
    simpa [petGraph, names, Table.keys] using listed
  rcases known with rfl | rfl | rfl | rfl
  · exact ⟨_, puppy⟩
  · exact ⟨_, cat⟩
  · exact ⟨_, dog⟩
  · exact ⟨_, pet⟩

end RamlTypes.TypeGraph
