import Mathlib.Data.List.Nodup
import Mathlib.Data.List.Perm.Subperm
import RamlTypes.Model
import RamlTypes.Proofs.Tables

/-!
# Walks along the parent links of a model

A model lists the parent of every declared type, and following the links needs no graph. Such a walk
is not guarded against circles: it goes on until there is no parent. One that ends passes distinct
names, all but the last of which are listed, so it takes no more steps than there are names, and
one more. The chain of a name is therefore exactly what the unguarded walk passes, and there is no
chain exactly where that walk would not end.
-/
namespace RamlTypes.Model

variable {m : Model} {name : String} {here : Option String} {path : List String}

/-- The parent that the model lists for a name. -/
def parent? (m : Model) (name : String) : Option String := (m.parents.find? name).bind id

/-- Where the walk for a name starts: nowhere, if the name is not listed. -/
def start? (m : Model) (name : String) : Option String :=
  if m.parents.contains name then some name else none

/-- The names that a walk passes until there is nowhere to go. -/
inductive Walk (m : Model) : Option String → List String → Prop where
  | done : Walk m none []
  | step {name : String} {path : List String} (rest : Walk m (m.parent? name) path) :
      Walk m (some name) (name :: path)

theorem Walk.unique {other : List String} (walk : m.Walk here path) (walk' : m.Walk here other) :
    path = other := by
  induction walk generalizing other with
  | done =>
    cases walk'
    rfl
  | step _ ih =>
    cases walk' with
    | step rest' => rw [ih rest']

/-- From each name that it passes on, a walk is the walk of that name. -/
theorem Walk.from_mem {passed : String} (walk : m.Walk here path) (member : passed ∈ path) :
    ∃ before after, path = before ++ passed :: after ∧ m.Walk (some passed) (passed :: after) := by
  induction walk with
  | done => simp at member
  | @step name path rest ih =>
    rcases List.mem_cons.mp member with rfl | later
    · exact ⟨[], path, rfl, .step rest⟩
    · obtain ⟨before, after, rfl, walk⟩ := ih later
      exact ⟨name :: before, after, rfl, walk⟩

theorem Walk.nodup (walk : m.Walk here path) : path.Nodup := by
  induction walk with
  | done => exact .nil
  | @step name path rest ih =>
    refine List.nodup_cons.mpr ⟨fun member => ?_, ih⟩
    -- If the walk came back to the name, it would end later than it does.
    obtain ⟨before, after, split, walk⟩ := rest.from_mem member
    have same := walk.unique (.step rest)
    have longer := congrArg List.length split
    simp only [List.cons.injEq, true_and] at same
    simp only [same, List.length_append, List.length_cons] at longer
    omega

/-- Only a name that is listed is gone on from. -/
theorem Walk.listed (walk : m.Walk here path) :
    ∀ passed ∈ path.dropLast, passed ∈ m.parents.keys := by
  induction walk with
  | done => simp
  | @step name path rest ih =>
    cases rest_eq : m.parent? name with
    | none =>
      rw [rest_eq] at rest
      cases rest
      simp
    | some parent =>
      rw [rest_eq] at rest
      obtain ⟨_, found, _⟩ := Option.bind_eq_some_iff.mp rest_eq
      cases rest with
      | step _ =>
        intro passed member
        rcases List.mem_cons.mp member with rfl | later
        · exact Table.mem_keys_of_find? found
        · exact ih passed later

theorem Walk.length_le (walk : m.Walk here path) : path.length ≤ m.parents.size + 1 := by
  have distinct : path.dropLast.Nodup := walk.nodup.sublist (List.dropLast_sublist path)
  have within := (List.subperm_of_subset distinct walk.listed).length_le
  have size : m.parents.keys.length = m.parents.size := List.length_map ..
  rw [List.length_dropLast, size] at within
  omega

/-- Within a bound, a chain is a walk that takes no more steps. -/
theorem chainWithin_eq_some_iff {bound : Nat} :
    m.chainWithin bound name = some path ↔ m.Walk (some name) path ∧ path.length ≤ bound := by
  induction bound generalizing name path with
  | zero =>
    simp only [chainWithin, reduceCtorEq, false_iff, not_and]
    rintro ⟨⟩
    simp
  | succ bound ih =>
    have parent : (m.parents.find? name).bind id = m.parent? name := rfl
    rw [chainWithin, parent]
    cases up : m.parent? name with
    | none =>
      constructor
      · intro same
        cases same
        exact ⟨.step (up ▸ .done), by simp⟩
      · rintro ⟨walk, _⟩
        cases walk with
        | step rest =>
          rw [up] at rest
          cases rest
          rfl
    | some next =>
      simp only [Option.map_eq_map, Option.map_eq_some_iff, ih]
      constructor
      · rintro ⟨path, ⟨walk, short⟩, rfl⟩
        exact ⟨.step (up ▸ walk), by simpa using short⟩
      · rintro ⟨walk, short⟩
        cases walk with
        | step rest => exact ⟨_, ⟨up ▸ rest, by simpa using short⟩, rfl⟩

/-- The bound is never what ends a chain. -/
theorem chain?_eq_some_iff : m.chain? name = some path ↔ m.Walk (m.start? name) path := by
  rw [chain?, start?]
  split
  · rw [chainWithin_eq_some_iff]
    exact ⟨And.left, fun walk => ⟨walk, walk.length_le⟩⟩
  · constructor
    · intro same
      cases same
      exact .done
    · intro walk
      cases walk
      rfl

end RamlTypes.Model
