import RamlTypes.Proofs.Chains
import RamlTypes.Proofs.SortedNames

/-!
# Nearest shared ancestors

The members of a union are typed as the shared ancestor that has all others above it. There is at
most one: two ancestors of a member lie on one chain, so one of them is an ancestor of the other,
and the lower one is less far away in the chain of every member. Therefore the choice of the least
distance is never a choice between names, and it depends on the set of the members only.
-/
namespace RamlTypes

/-! ### Least measures -/

theorem leastBy_eq_none_iff {α : Type} (measure : α → Nat) (xs : List α) :
    leastBy measure xs = none ↔ xs = [] := by
  cases xs with
  | nil => simp [leastBy]
  | cons x xs =>
    simp only [leastBy]
    split
    · simp
    · split <;> simp

theorem leastBy_spec {α : Type} {measure : α → Nat} {xs : List α} {least : α}
    (found : leastBy measure xs = some least) :
    least ∈ xs ∧ ∀ x ∈ xs, measure least ≤ measure x := by
  induction xs generalizing least with
  | nil => simp [leastBy] at found
  | cons x xs ih =>
    cases rest : leastBy measure xs with
    | none =>
      have single : least = x := by simpa [leastBy, rest] using found.symm
      simp [single, (leastBy_eq_none_iff measure xs).mp rest]
    | some low =>
      -- The least of the rest is kept only where the first is not below it.
      obtain ⟨member, bound⟩ := ih rest
      simp only [leastBy, rest] at found
      split at found
      next smaller =>
        cases found
        refine ⟨by simp [member], fun y present => ?_⟩
        rcases List.mem_cons.mp present with rfl | later
        · omega
        · exact bound y later
      next notSmaller =>
        cases found
        refine ⟨by simp, fun y present => ?_⟩
        rcases List.mem_cons.mp present with rfl | later
        · exact Nat.le_refl _
        · have := bound y later
          omega

private theorem foldl_max_le_iff (xs : List Nat) (start bound : Nat) :
    xs.foldl max start ≤ bound ↔ start ≤ bound ∧ ∀ x ∈ xs, x ≤ bound := by
  induction xs generalizing start with
  | nil => simp
  | cons x xs ih =>
    simp only [List.foldl_cons, ih, List.mem_cons, forall_eq_or_imp, Nat.max_le]
    exact and_assoc

namespace Hierarchy

theorem depthIn_le_iff (chains : List (List String)) (name : String) (bound : Nat) :
    depthIn chains name ≤ bound ↔ ∀ chain ∈ chains, chain.idxOf name ≤ bound := by
  simp [depthIn, foldl_max_le_iff]

/-- A name that is nearer in every one of some chains is nearer over all. -/
theorem depthIn_lt {chains : List (List String)} {near far : String} (nonempty : chains ≠ [])
    (nearer : ∀ chain ∈ chains, chain.idxOf near < chain.idxOf far) :
    depthIn chains near < depthIn chains far := by
  have bound := (depthIn_le_iff chains far _).mp (Nat.le_refl _)
  obtain ⟨first, member⟩ := List.exists_mem_of_ne_nil chains nonempty
  have positive := Nat.lt_of_lt_of_le (Nat.zero_lt_of_lt (nearer first member)) (bound first member)
  -- Each place of the near name is one or more before a place of the far name.
  have below : depthIn chains near ≤ depthIn chains far - 1 := by
    refine (depthIn_le_iff _ _ _).mpr fun chain present => ?_
    have := nearer chain present
    have := bound chain present
    omega
  omega

private theorem mem_shared_iff {first : List String} {rest : List (List String)} {name : String} :
    name ∈ (sortNames first).filter (fun name => rest.all (·.contains name)) ↔
      ∀ chain ∈ first :: rest, name ∈ chain := by
  simp [sortNames, List.mem_filter]

theorem nearestShared_eq_none_iff {chains : List (List String)} (nonempty : chains ≠ []) :
    nearestShared chains = none ↔ ¬ ∃ name, ∀ chain ∈ chains, name ∈ chain := by
  obtain ⟨first, rest, rfl⟩ := List.exists_cons_of_ne_nil nonempty
  rw [nearestShared, leastBy_eq_none_iff, List.eq_nil_iff_forall_not_mem]
  simp only [mem_shared_iff, not_exists]

theorem nearestShared_spec {chains : List (List String)} {nearest : String}
    (found : nearestShared chains = some nearest) :
    (∀ chain ∈ chains, nearest ∈ chain) ∧
      ∀ name, (∀ chain ∈ chains, name ∈ chain) →
        depthIn chains nearest ≤ depthIn chains name := by
  cases chains with
  | nil => simp [nearestShared] at found
  | cons first rest =>
    obtain ⟨member, bound⟩ := leastBy_spec found
    exact ⟨mem_shared_iff.mp member, fun name shared => bound name (mem_shared_iff.mpr shared)⟩

end Hierarchy

namespace TypeGraph

variable {g : TypeGraph} {members : List String}

/-- A declared name that is an ancestor of every member. -/
def IsShared (g : TypeGraph) (members : List String) (ancestor : String) : Prop :=
  g.isDeclared ancestor = true ∧ ∀ member ∈ members, g.IsAncestor ancestor member

/-- A shared ancestor that all other shared ancestors are ancestors of. -/
def IsNearestShared (g : TypeGraph) (members : List String) (ancestor : String) : Prop :=
  g.IsShared members ancestor ∧
    ∀ other, g.IsShared members other → other ≠ ancestor → g.IsAncestor other ancestor

/-! ### Ancestors of one member -/

/-- Two ancestors of a name lie on one walk, so the later one is an ancestor of the earlier one. -/
theorem IsAncestor.comparable {left right name : String} (first : g.IsAncestor left name)
    (second : g.IsAncestor right name) (apart : left ≠ right) :
    g.IsAncestor right left ∨ g.IsAncestor left right := by
  obtain ⟨steps, reached⟩ := first
  obtain ⟨steps', reached'⟩ := second
  rcases Nat.lt_trichotomy steps steps' with before | rfl | after
  -- The walk to the farther one is the walk to the nearer one and some steps more.
  · obtain ⟨more, rfl⟩ := Nat.exists_eq_add_of_lt before
    rw [Nat.add_right_comm steps more, Nat.add_assoc, climb_add, reached] at reached'
    exact .inl ⟨more, reached'⟩
  · exact absurd (Option.some.inj (reached.symm.trans reached')) apart
  · obtain ⟨more, rfl⟩ := Nat.exists_eq_add_of_lt after
    rw [Nat.add_right_comm steps' more, Nat.add_assoc, climb_add, reached'] at reached
    exact .inr ⟨more, reached⟩

/-- In a chain, an ancestor of a name stands behind that name. -/
theorem Lineage.idxOf_lt {name near far : String} {path : List String} (line : g.Lineage name path)
    (sound : g.WellFormed) (member : near ∈ path.tail) (above : g.IsAncestor far near) :
    path.tail.idxOf near < path.tail.idxOf far := by
  have nodup : path.tail.Nodup := line.nodup.tail
  -- The place of a name in the chain is the number of steps to it, less one.
  have idxOf_of_climb {other : String} {steps : Nat}
      (reached : g.climb name (steps + 1) = some other) : path.tail.idxOf other = steps := by
    rw [← line.getElem?_tail sound] at reached
    obtain ⟨bound, rfl⟩ := List.getElem?_eq_some_iff.mp reached
    exact nodup.idxOf_getElem steps bound
  obtain ⟨steps, reached⟩ := (line.mem_tail_iff sound).mp member
  obtain ⟨more, higher⟩ := above
  have beyond : g.climb name (steps + more + 1 + 1) = some far := by
    rw [Nat.add_right_comm steps more 1, Nat.add_assoc, climb_add, reached]
    exact higher
  rw [idxOf_of_climb reached, idxOf_of_climb beyond]
  omega

theorem memberAncestors_eq {member : String} {path : List String}
    (line : g.Lineage member path) : g.hierarchy.memberAncestors member = .ok path.tail := by
  unfold Hierarchy.memberAncestors
  split
  · simp [Hierarchy.ancestors, hierarchy, chain_ok_iff.mpr line, Functor.map, Except.map]
  next absent =>
    -- A member that is not declared has no ancestors, as its lineage says.
    cases line.unique (.undeclared (by simpa [hierarchy] using absent))
    rfl

/-! ### Ancestors of all members -/

/-- The chains of some members, without the members themselves. -/
def AncestorsOf (g : TypeGraph) (members : List String) (chains : List (List String)) : Prop :=
  List.Forall₂ (fun member chain => ∃ path, g.Lineage member path ∧ chain = path.tail)
    members chains

theorem exists_ancestorsOf (acyclic : g.Acyclic) (members : List String) :
    ∃ chains, members.mapM g.hierarchy.memberAncestors = .ok chains ∧
      g.AncestorsOf members chains := by
  have each : ∀ member ∈ members,
      ∃ chain, g.hierarchy.memberAncestors member = .ok chain := by
    intro member _
    obtain ⟨path, line⟩ := exists_lineage (acyclic member)
    exact ⟨path.tail, memberAncestors_eq line⟩
  obtain ⟨chains, computed⟩ := mapM_returns each
  refine ⟨chains, computed, ((mapM_ok_iff _ _ _).mp computed).imp fun member chain found => ?_⟩
  obtain ⟨path, line⟩ := exists_lineage (acyclic member)
  rw [memberAncestors_eq line] at found
  exact ⟨path, line, (Except.ok.inj found).symm⟩

variable {chains : List (List String)}

theorem AncestorsOf.nonempty (above : g.AncestorsOf members chains) (nonempty : members ≠ []) :
    chains ≠ [] := by
  rintro rfl
  exact nonempty (List.forall₂_nil_right_iff.mp above)

theorem IsAncestor.declared {ancestor name : String} (above : g.IsAncestor ancestor name)
    (sound : g.WellFormed) : g.isDeclared ancestor = true := by
  obtain ⟨steps, reached⟩ := above
  rw [climb_add] at reached
  obtain ⟨lower, _, last⟩ := Option.bind_eq_some_iff.mp reached
  obtain ⟨parent, up, rfl⟩ : ∃ parent, g.parent? lower = some parent ∧ parent = ancestor := by
    simpa [climb] using last
  exact sound.parent_declared up

theorem AncestorsOf.mem_all_iff (above : g.AncestorsOf members chains) (sound : g.WellFormed)
    (nonempty : members ≠ []) (name : String) :
    (∀ chain ∈ chains, name ∈ chain) ↔ g.IsShared members name := by
  have pointwise : (∀ chain ∈ chains, name ∈ chain) ↔
      ∀ member ∈ members, g.IsAncestor name member := by
    constructor
    · intro inAll member present
      obtain ⟨_, found, path, line, rfl⟩ := exists_of_mem_left above present
      exact (line.mem_tail_iff sound).mp (inAll _ found)
    · intro ancestor chain present
      obtain ⟨member, found, path, line, rfl⟩ := exists_of_mem_right above present
      exact (line.mem_tail_iff sound).mpr (ancestor member found)
  obtain ⟨member, present⟩ := List.exists_mem_of_ne_nil members nonempty
  rw [pointwise, IsShared]
  exact ⟨fun each => ⟨(each member present).declared sound, each⟩, And.right⟩

/-- A shared ancestor is less far away than its own ancestors. -/
theorem AncestorsOf.depthIn_lt (above : g.AncestorsOf members chains) (sound : g.WellFormed)
    (nonempty : members ≠ []) {near far : String} (shared : g.IsShared members near)
    (higher : g.IsAncestor far near) :
    Hierarchy.depthIn chains near < Hierarchy.depthIn chains far := by
  apply Hierarchy.depthIn_lt (above.nonempty nonempty)
  intro chain present
  have member := (above.mem_all_iff sound nonempty near).mpr shared chain present
  obtain ⟨_, _, path, line, rfl⟩ := exists_of_mem_right above present
  exact line.idxOf_lt sound member higher

/-- Different shared ancestors are never equally far away. -/
theorem AncestorsOf.depthIn_ne (above : g.AncestorsOf members chains) (sound : g.WellFormed)
    (nonempty : members ≠ []) {left right : String} (first : g.IsShared members left)
    (second : g.IsShared members right) (apart : left ≠ right) :
    Hierarchy.depthIn chains left ≠ Hierarchy.depthIn chains right := by
  -- Any member will do: both are its ancestors, so one of them is above the other.
  obtain ⟨member, present⟩ := List.exists_mem_of_ne_nil members nonempty
  rcases (first.2 member present).comparable (second.2 member present) apart with higher | higher
  · exact Nat.ne_of_lt (above.depthIn_lt sound nonempty first higher)
  · exact Nat.ne_of_gt (above.depthIn_lt sound nonempty second higher)

/-- The nearest shared name of the chains is a nearest shared ancestor of the members. -/
theorem AncestorsOf.isNearestShared (above : g.AncestorsOf members chains) (sound : g.WellFormed)
    (nonempty : members ≠ []) {ancestor : String}
    (found : Hierarchy.nearestShared chains = some ancestor) :
    g.IsNearestShared members ancestor := by
  obtain ⟨member, present⟩ := List.exists_mem_of_ne_nil members nonempty
  obtain ⟨inAll, bound⟩ := Hierarchy.nearestShared_spec found
  have shared := (above.mem_all_iff sound nonempty ancestor).mp inAll
  refine ⟨shared, fun other shared' apart => ?_⟩
  rcases (shared'.2 member present).comparable (shared.2 member present) apart with lower | higher
  -- A shared ancestor below the found one would be less far away.
  · have closer := above.depthIn_lt sound nonempty shared' lower
    have := bound other ((above.mem_all_iff sound nonempty other).mpr shared')
    omega
  · exact higher

/-- Of two nearest shared ancestors each would be an ancestor of the other one. -/
theorem IsNearestShared.unique {left right : String} (acyclic : g.Acyclic)
    (first : g.IsNearestShared members left) (second : g.IsNearestShared members right) :
    left = right := by
  by_contra apart
  have above := second.2 left first.1 apart
  have below := first.2 right second.1 (Ne.symm apart)
  obtain ⟨steps, circled⟩ := below.trans above
  exact acyclic right ⟨0, steps + 1, right, by omega, rfl, circled⟩

theorem isNearestShared_congr {others : List String}
    (same : ∀ member, member ∈ others ↔ member ∈ members) (ancestor : String) :
    g.IsNearestShared others ancestor ↔ g.IsNearestShared members ancestor := by
  simp only [IsNearestShared, IsShared, same]

/-! ### The type of a union -/

private theorem eraseDups_ne_nil (nonempty : members ≠ []) : members.eraseDups ≠ [] := by
  obtain ⟨first, rest, rfl⟩ := List.exists_cons_of_ne_nil nonempty
  simp [List.eraseDups_cons]

theorem commonAncestor_outcome (universal : Value)
    (computed : members.eraseDups.mapM g.hierarchy.memberAncestors = .ok chains) :
    (g.hierarchy.commonAncestor universal members).outcome =
      .ok (((Hierarchy.nearestShared chains).map Value.text).getD universal) := by
  simp only [Hierarchy.commonAncestor, Logged.outcome_bind, Logged.outcome_mapM,
    Logged.outcome_ofExcept, computed]
  -- What is reported on the way does not matter here.
  cases nearest : Hierarchy.nearestShared chains with
  | some ancestor => simp [nearest, bind, Except.bind]
  | none =>
    simp only [bind, Except.bind, nearest]
    split <;> rfl

/-- A union has the type of the nearest shared ancestor of its members, or the universal type if
they share none. -/
theorem commonAncestor_cases (sound : g.WellFormed) (acyclic : g.Acyclic) (universal : Value)
    (nonempty : members ≠ []) :
    (∃ ancestor : String, (g.hierarchy.commonAncestor universal members).outcome = .ok ancestor ∧
      g.IsNearestShared members ancestor) ∨
    ((g.hierarchy.commonAncestor universal members).outcome = .ok universal ∧
      ¬ ∃ ancestor, g.IsShared members ancestor) := by
  obtain ⟨chains, computed, above⟩ := exists_ancestorsOf acyclic members.eraseDups
  have nonempty' := eraseDups_ne_nil nonempty
  rw [commonAncestor_outcome universal computed]
  cases nearest : Hierarchy.nearestShared chains with
  | some ancestor =>
    refine .inl ⟨ancestor, rfl, ?_⟩
    rw [← isNearestShared_congr (fun _ => List.mem_eraseDups) ancestor]
    exact above.isNearestShared sound nonempty' nearest
  | none =>
    -- A name in all chains is a shared ancestor, and the other way round.
    refine .inr ⟨rfl, ?_⟩
    rintro ⟨ancestor, shared⟩
    have unshared := (Hierarchy.nearestShared_eq_none_iff (above.nonempty nonempty')).mp nearest
    refine unshared ⟨ancestor, (above.mem_all_iff sound nonempty' ancestor).mpr ?_⟩
    simpa only [IsShared, List.mem_eraseDups] using shared

theorem commonAncestor_nil (g : TypeGraph) (universal : Value) :
    (g.hierarchy.commonAncestor universal []).outcome = .ok universal := rfl

/-- The type of a union is declared, or else it is the universal type. -/
theorem commonAncestor_declared (sound : g.WellFormed) (acyclic : g.Acyclic)
    {universal ancestor : String}
    (typed : (g.hierarchy.commonAncestor universal members).outcome = .ok ancestor) :
    ancestor = universal ∨ g.isDeclared ancestor = true := by
  by_cases nonempty : members = []
  · rw [nonempty, commonAncestor_nil] at typed
    cases typed
    exact .inl rfl
  · rcases commonAncestor_cases sound acyclic universal nonempty with
      ⟨_, found, shared, _⟩ | ⟨found, _⟩
    · cases typed.symm.trans found
      exact .inr shared.1
    · cases typed.symm.trans found
      exact .inl rfl

theorem not_isShared_of_undeclared {member : String} (present : member ∈ members)
    (absent : g.isDeclared member = false) (ancestor : String) : ¬ g.IsShared members ancestor := by
  rintro ⟨_, above⟩
  obtain ⟨steps, reached⟩ := above member present
  simp [climb_succ_of_root (parent?_of_undeclared absent)] at reached

/-- The type of a union depends on the set of its members only. -/
theorem commonAncestor_congr {others : List String} (sound : g.WellFormed) (acyclic : g.Acyclic)
    (universal : Value) (same : ∀ member, member ∈ others ↔ member ∈ members) :
    (g.hierarchy.commonAncestor universal others).outcome =
      (g.hierarchy.commonAncestor universal members).outcome := by
  by_cases nonempty : members = []
  · have empty : others = [] := by
      simpa [nonempty, List.eq_nil_iff_forall_not_mem] using same
    rw [nonempty, empty]
  · have nonempty' : others ≠ [] := by
      obtain ⟨member, present⟩ := List.exists_mem_of_ne_nil members nonempty
      exact List.ne_nil_of_mem ((same member).mpr present)
    -- The two computations are compared by what they stand for, not step by step.
    rcases commonAncestor_cases sound acyclic universal nonempty with
      ⟨ancestor, typed, nearest⟩ | ⟨typed, unshared⟩ <;>
    rcases commonAncestor_cases sound acyclic universal nonempty' with
      ⟨ancestor', typed', nearest'⟩ | ⟨typed', unshared'⟩
    · have nearest'' := (isNearestShared_congr same ancestor').mp nearest'
      rw [typed, typed', nearest.unique acyclic nearest'']
    · exact absurd ⟨ancestor, ((isNearestShared_congr same ancestor).mpr nearest).1⟩ unshared'
    · exact absurd ⟨ancestor', ((isNearestShared_congr same ancestor').mp nearest').1⟩ unshared
    · rw [typed, typed']

/-- The type of a union is the universal type where its members share no declared ancestor, and
otherwise the one shared ancestor that all others are ancestors of. It is the same for every order
and repetition of the members, and no two shared ancestors are equally far away. -/
theorem commonAncestor_nearest (built : g.IsBuilt) (acyclic : g.Acyclic) (universal : Value)
    (members : List String) :
    (members = [] ∨ (∃ member ∈ members, g.isDeclared member = false) ∨
        (¬ ∃ ancestor, g.IsShared members ancestor) →
      (g.hierarchy.commonAncestor universal members).outcome = .ok universal) ∧
    (members ≠ [] → (∃ ancestor, g.IsShared members ancestor) →
      ∃ ancestor : String,
        (g.hierarchy.commonAncestor universal members).outcome = .ok ancestor ∧
        g.IsNearestShared members ancestor ∧
        ∀ other, g.IsNearestShared members other → other = ancestor) ∧
    (∀ others, (∀ member, member ∈ others ↔ member ∈ members) →
      (g.hierarchy.commonAncestor universal others).outcome =
        (g.hierarchy.commonAncestor universal members).outcome) ∧
    (members ≠ [] → ∃ chains,
      members.eraseDups.mapM g.hierarchy.memberAncestors = .ok chains ∧
      ∀ left right, g.IsShared members left → g.IsShared members right → left ≠ right →
        Hierarchy.depthIn chains left ≠ Hierarchy.depthIn chains right) := by
  have sound := built.wellFormed
  refine ⟨?_, ?_, ?_, ?_⟩
  · intro unshared
    by_cases nonempty : members = []
    · rw [nonempty, commonAncestor_nil]
    · rcases commonAncestor_cases sound acyclic universal nonempty with
        ⟨ancestor, _, shared, _⟩ | ⟨typed, _⟩
      · rcases unshared with empty | ⟨member, present, absent⟩ | none
        · exact absurd empty nonempty
        · exact absurd shared (not_isShared_of_undeclared present absent ancestor)
        · exact absurd ⟨ancestor, shared⟩ none
      · exact typed
  · intro nonempty shared
    rcases commonAncestor_cases sound acyclic universal nonempty with
      ⟨ancestor, typed, nearest⟩ | ⟨_, unshared⟩
    · exact ⟨ancestor, typed, nearest, fun other nearest' => nearest'.unique acyclic nearest⟩
    · exact absurd shared unshared
  · exact fun others same => commonAncestor_congr sound acyclic universal same
  · intro nonempty
    obtain ⟨chains, computed, above⟩ := exists_ancestorsOf acyclic members.eraseDups
    refine ⟨chains, computed, fun left right first second apart => ?_⟩
    apply above.depthIn_ne sound (eraseDups_ne_nil nonempty) _ _ apart
    · simpa only [IsShared, List.mem_eraseDups] using first
    · simpa only [IsShared, List.mem_eraseDups] using second

/-- A cat and a puppy, whose parent is a dog, share the pet alone. -/
theorem commonAncestor_nearest_pets :
    petGraph.IsBuilt ∧ petGraph.Acyclic ∧
      (petGraph.hierarchy.commonAncestor "Object" ["Cat", "Puppy"]).outcome = .ok "Pet" := by
  refine ⟨petGraph_isBuilt, petGraph_acyclic, ?_⟩
  have shared : petGraph.IsShared ["Cat", "Puppy"] "Pet" := by
    refine ⟨by decide, fun member present => ?_⟩
    rcases List.mem_pair.mp present with rfl | rfl
    · exact ⟨0, by decide⟩
    · exact ⟨1, by decide⟩
  obtain ⟨-, nearest, -, -⟩ :=
    commonAncestor_nearest petGraph_isBuilt petGraph_acyclic "Object" ["Cat", "Puppy"]
  obtain ⟨ancestor, typed, ⟨⟨_, above⟩, _⟩, _⟩ := nearest (by simp) ⟨"Pet", shared⟩
  obtain ⟨steps, reached⟩ := above "Cat" (by simp)
  have up : petGraph.parent? "Cat" = some "Pet" := by decide
  rw [climb_succ_of_parent up] at reached
  cases steps with
  | zero =>
    cases reached
    exact typed
  | succ steps =>
    have top : petGraph.parent? "Pet" = none := by decide
    simp [climb_succ_of_root top] at reached

end TypeGraph

end RamlTypes
