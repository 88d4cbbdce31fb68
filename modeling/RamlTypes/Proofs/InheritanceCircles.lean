import RamlTypes.Proofs.Chains
import RamlTypes.Proofs.RememberedAnswers

/-!
# Chains and circles

A walk up the parents of a type passes no declared name twice, so it ends. Either it comes to a type
without a parent, and all that it has passed is the chain of the type; or it comes back to a name
that it has passed, and is reported up to there. The way into a circle is part of the report, as the
start need not lie on it. A circle is never remembered, so every later question about the name walks
it again, and ends in the same way.
-/
namespace RamlTypes

namespace TypeGraph

variable {g : TypeGraph} {name : String} {path passed : List String} {again : String}

/-- Each name but the last has the next one as its parent. -/
def Linked (g : TypeGraph) (names : List String) : Prop :=
  names.IsChain fun child parent => g.parent? child = some parent

/-- The names from the given one up to one without a parent, or no names if it is not declared. -/
structure IsAscent (g : TypeGraph) (name : String) (path : List String) : Prop where
  starts : path.head? = if g.isDeclared name = true then some name else none
  linked : g.Linked path
  ends : ∀ top, path.getLast? = some top → g.parent? top = none
  nodup : path.Nodup
  bounded : path.length ≤ g.names.length

/-- The names from the given one on, each once, up to one whose parent is one of them again. -/
structure ComesBack (g : TypeGraph) (name : String) (passed : List String) (again : String) :
    Prop where
  starts : passed.head? = some name
  linked : g.Linked (passed ++ [again])
  nodup : passed.Nodup
  closes : again ∈ passed
  bounded : passed.length ≤ g.names.length

theorem isDeclared_of_parent? {parent : String} (up : g.parent? name = some parent) :
    g.isDeclared name = true := by
  by_contra absent
  rw [parent?_of_undeclared (Bool.eq_false_iff.mpr absent)] at up
  cases up

theorem length_le_of_declared (nodup : path.Nodup)
    (declared : ∀ passed ∈ path, g.isDeclared passed = true) : path.length ≤ g.names.length :=
  (List.subperm_of_subset nodup fun passed member =>
    (Table.contains_iff g.nodes passed).mp (declared passed member)).length_le

/-! ### Walks that end -/

theorem Lineage.linked (line : g.Lineage name path) (sound : g.WellFormed) : g.Linked path := by
  induction line with
  | undeclared => exact .nil
  | root => exact .singleton _
  | child _ up rest ih =>
    obtain ⟨farther, rfl⟩ := rest.starts (sound.parent_declared up)
    exact List.isChain_cons_cons.mpr ⟨up, ih⟩

theorem Lineage.ends (line : g.Lineage name path) (sound : g.WellFormed) :
    ∀ top, path.getLast? = some top → g.parent? top = none := by
  induction line with
  | undeclared => simp
  | root _ top => simpa using top
  | child _ up rest ih =>
    obtain ⟨farther, rfl⟩ := rest.starts (sound.parent_declared up)
    simpa using ih

theorem Lineage.isAscent (line : g.Lineage name path) (sound : g.WellFormed) :
    g.IsAscent name path where
  starts := by
    cases line with
    | undeclared absent => simp [absent]
    | root declared | child declared => simp [declared]
  linked := line.linked sound
  ends := line.ends sound
  nodup := line.nodup
  bounded := length_le_of_declared line.nodup line.declared

/-- Names that are linked up to one without a parent are the lineage of the first one. -/
theorem lineage_of_linked {above : List String} (sound : g.WellFormed)
    (declared : g.isDeclared name = true) (linked : g.Linked (name :: above))
    (ends : ∀ top, (name :: above).getLast? = some top → g.parent? top = none) :
    g.Lineage name (name :: above) := by
  induction above generalizing name with
  | nil => exact .root declared (ends name rfl)
  | cons next above ih =>
    obtain ⟨up, linked'⟩ := List.isChain_cons_cons.mp linked
    exact .child declared up (ih (sound.parent_declared up) linked' (by simpa using ends))

theorem IsAscent.lineage (ascent : g.IsAscent name path) (sound : g.WellFormed) :
    g.Lineage name path := by
  have starts := ascent.starts
  split at starts
  next declared =>
    obtain ⟨above, rfl⟩ := List.head?_eq_some_iff.mp starts
    exact lineage_of_linked sound declared ascent.linked ascent.ends
  next absent =>
    cases List.head?_eq_none_iff.mp starts
    exact .undeclared (Bool.eq_false_iff.mpr absent)

theorem chain_ok_iff_isAscent (sound : g.WellFormed) :
    g.chain name = .ok path ↔ g.IsAscent name path :=
  chain_ok_iff.trans ⟨fun line => line.isAscent sound, fun ascent => ascent.lineage sound⟩

/-! ### Walks that come back -/

/-- A name that is followed by another one has it as its parent. -/
theorem Linked.parent_of_split {before after : List String} {next : String}
    (linked : g.Linked (before ++ name :: after)) (follows : after.head? = some next) :
    g.parent? name = some next :=
  (List.isChain_cons.mp (List.isChain_append.mp linked).2.1).1 next follows

theorem Linked.declared (linked : g.Linked (passed ++ [again])) :
    ∀ name ∈ passed, g.isDeclared name = true := by
  intro name member
  obtain ⟨before, after, rfl⟩ := List.append_of_mem member
  rw [List.append_assoc, List.cons_append] at linked
  obtain ⟨next, follows⟩ : ∃ next, (after ++ [again]).head? = some next := by
    cases after <;> simp
  exact isDeclared_of_parent? (linked.parent_of_split follows)

/-- A walk goes on from where it is until it meets a name again, and then reports all of it. -/
theorem circle_of_chainFrom {fault : Fault} (linked : g.Linked (passed ++ [name]))
    (nodup : passed.Nodup) (failed : g.chainFrom passed name = .error fault) :
    ∃ walked again, fault = .cycle (walked ++ [again]) ∧
      passed ++ [name] <+: walked ++ [again] ∧ g.Linked (walked ++ [again]) ∧ walked.Nodup ∧
      again ∈ walked := by
  fun_induction chainFrom g passed name with
  | case1 passed name declared repeated =>
    cases failed
    exact ⟨passed, name, rfl, List.prefix_refl _, linked, nodup, repeated⟩
  | case2 => simp at failed
  | case3 passed name declared fresh parent up ih =>
    have linked' : g.Linked ((passed ++ [name]) ++ [parent]) := by
      refine List.isChain_append.mpr ⟨linked, .singleton _, ?_⟩
      simpa using up
    have nodup' : (passed ++ [name]).Nodup := by
      rw [← List.concat_eq_append]
      exact nodup.concat fresh
    obtain ⟨walked, again, reported, begins, circle⟩ := ih linked' nodup' failed
    exact ⟨walked, again, reported, (List.prefix_append _ _).trans begins, circle⟩
  | case4 => simp at failed

/-- Where the names ahead lead back to one that is passed before or on the way, the walk reports
all of them. -/
theorem chainFrom_of_circle {ahead : List String} (linked : g.Linked (passed ++ ahead ++ [again]))
    (nodup : (passed ++ ahead).Nodup) (closes : again ∈ passed ++ ahead)
    (here : (ahead ++ [again]).head? = some name) :
    g.chainFrom passed name = .error (.cycle (passed ++ ahead ++ [again])) := by
  induction ahead generalizing passed name with
  | nil =>
    cases here
    rw [List.append_nil] at linked closes ⊢
    rw [chainFrom, dif_pos (linked.declared again closes), dif_pos closes]
  | cons first ahead ih =>
    obtain rfl : first = name := Option.some.inj here
    rw [List.append_cons passed first ahead] at linked nodup closes ⊢
    obtain ⟨next, follows⟩ : ∃ next, (ahead ++ [again]).head? = some next := by
      cases ahead <;> simp
    have up : g.parent? first = some next := by
      rw [List.append_assoc, List.append_assoc, List.singleton_append] at linked
      exact linked.parent_of_split follows
    have fresh : first ∉ passed := by
      have apart := (List.nodup_append.mp nodup).1
      exact fun member => (List.nodup_append.mp apart).2.2 first member first (by simp) rfl
    rw [chainFrom, dif_pos (isDeclared_of_parent? up), dif_neg fresh, up]
    exact ih linked nodup closes follows

/-- The walk ends at a chain exactly if it comes back to no name. -/
theorem chain_returns_iff : (∃ path, g.chain name = .ok path) ↔ ¬ g.Revisits name := by
  simp only [chain_ok_iff]
  exact ⟨fun ⟨_, line⟩ => line.not_revisits, exists_lineage⟩

theorem chain_error_iff_comesBack {fault : Fault} :
    g.chain name = .error fault ↔
      ∃ passed again, fault = .cycle (passed ++ [again]) ∧ g.ComesBack name passed again := by
  constructor
  · intro failed
    have start : g.Linked ([] ++ [name]) := .singleton name
    obtain ⟨passed, again, rfl, begins, linked, nodup, closes⟩ :=
      circle_of_chainFrom start .nil failed
    refine ⟨passed, again, rfl, ?_, linked, nodup, closes,
      length_le_of_declared nodup linked.declared⟩
    obtain ⟨first, rest, rfl⟩ := List.exists_cons_of_ne_nil (List.ne_nil_of_mem closes)
    obtain ⟨same, _⟩ := List.cons_prefix_cons.mp begins
    rw [same, List.head?_cons]
  · rintro ⟨passed, again, rfl, starts, linked, nodup, closes, _⟩
    rw [← List.nil_append passed] at linked nodup closes ⊢
    exact chainFrom_of_circle linked nodup closes (by simp [starts])

theorem chain_circles_iff :
    (∃ passed again, g.chain name = .error (.cycle (passed ++ [again]))) ↔ g.Revisits name := by
  constructor
  · rintro ⟨passed, again, failed⟩
    exact (chain_error failed).2
  · intro circle
    cases computed : g.chain name with
    | ok path => exact absurd circle (chain_returns_iff.mp ⟨path, computed⟩)
    | error fault =>
      obtain ⟨passed, again, rfl, _⟩ := chain_error_iff_comesBack.mp computed
      exact ⟨passed, again, rfl⟩

/-! ### Sessions -/

end TypeGraph

/-- The session after some questions. -/
def Session.after (s : Session) (queries : List Query) : Session :=
  queries.foldl (fun s q => (s.ask q).2) s

/-- However it goes on, the memory of a session is faithful to its graph. -/
theorem Session.after_faithful {s : Session} (sound : s.Faithful) (queries : List Query) :
    (s.after queries).Faithful ∧ (s.after queries).resolver = s.resolver := by
  induction queries generalizing s with
  | nil => exact ⟨sound, rfl⟩
  | cons q rest ih =>
    obtain ⟨_, sound', unchanged⟩ := ask_of_faithful sound q
    obtain ⟨behind, unchanged'⟩ := ih sound'
    exact ⟨behind, unchanged'.trans unchanged⟩

/-- What is remembered has come to an end. -/
theorem Session.chain_unremembered {s : Session} (sound : s.Faithful) {name : String}
    (circle : s.graph.Revisits name) : s.memory.chains.find? name = none := by
  rw [Option.eq_none_iff_forall_ne_some]
  intro path remembered
  exact TypeGraph.chain_returns_iff.mp ⟨path, sound.chains name path remembered⟩ circle

namespace TypeGraph

variable {g : TypeGraph}

/-- Following the parents of a name ends with its chain if it comes back to no name, and otherwise
with the circle that it runs into. This is so at every time of a session, which never remembers a
circle. -/
theorem chain_outcome (built : g.IsBuilt) (name : String) :
    ((∃ path, g.chain name = .ok path) ↔ ¬ g.Revisits name) ∧
    (∀ path, g.chain name = .ok path ↔ g.IsAscent name path) ∧
    ((∃ passed again, g.chain name = .error (.cycle (passed ++ [again]))) ↔ g.Revisits name) ∧
    (∀ fault, g.chain name = .error fault ↔
      ∃ passed again, fault = .cycle (passed ++ [again]) ∧ g.ComesBack name passed again) ∧
    ∀ primitive? config queries,
      (((Session.start primitive? config g).after queries).ask (.chain name)).1 =
        .ofExcept (.names <$> g.chain name) ∧
      (g.Revisits name →
        ((Session.start primitive? config g).after queries).memory.chains.find? name = none) := by
  refine ⟨chain_returns_iff, fun path => chain_ok_iff_isAscent built.wellFormed,
    chain_circles_iff, fun fault => chain_error_iff_comesBack, ?_⟩
  intro primitive? config queries
  have start : (Session.start primitive? config g).Faithful := .empty g
  obtain ⟨sound, unchanged⟩ := Session.after_faithful start queries
  obtain ⟨same, _⟩ := Session.ask_of_faithful sound (.chain name)
  have graph : ((Session.start primitive? config g).after queries).graph = g :=
    congrArg Resolver.graph unchanged
  refine ⟨same.trans (by rw [unchanged]; rfl), fun circle => ?_⟩
  exact Session.chain_unremembered sound (by rwa [graph])

/-- Cats are felines, which are cats again, and kittens lead there. Dogs are pets. -/
def felineGraph : TypeGraph where
  title := ""
  nodes := ⟨[
    ("Kitten", objectNode "Kitten" (some "Cat") .empty),
    ("Cat", objectNode "Cat" (some "Feline") .empty),
    ("Feline", objectNode "Feline" (some "Cat") .empty),
    ("Dog", objectNode "Dog" (some "Pet") .empty),
    ("Pet", objectNode "Pet" none .empty)], by simp⟩
  resources := []

theorem felineGraph_isBuilt : felineGraph.IsBuilt := by
  refine ⟨⟨"", ⟨[
    ("Kitten", objectDecl (some "Cat") []),
    ("Cat", objectDecl (some "Feline") []),
    ("Feline", objectDecl (some "Cat") []),
    ("Dog", objectDecl (some "Pet") []),
    ("Pet", objectDecl none [])], by simp⟩, []⟩, ?_⟩
  cbv

/-- The chain of a dog ends. The one of a kitten comes back to the cat, and does so again when it is
asked for a second time. -/
theorem chain_outcome_felines :
    felineGraph.IsBuilt ∧
      ¬ felineGraph.Revisits "Dog" ∧ felineGraph.IsAscent "Dog" ["Dog", "Pet"] ∧
      felineGraph.Revisits "Kitten" ∧
      felineGraph.ComesBack "Kitten" ["Kitten", "Cat", "Feline"] "Cat" ∧
      ((((Session.start Profile.java.primitive? {} felineGraph).after
        [.chain "Kitten", .chain "Dog"]).ask (.chain "Kitten")).1).outcome =
          .error (.cycle ["Kitten", "Cat", "Feline", "Cat"]) := by
  have dog : felineGraph.chain "Dog" = .ok ["Dog", "Pet"] := by cbv
  have kitten : felineGraph.chain "Kitten" =
      .error (.cycle (["Kitten", "Cat", "Feline"] ++ ["Cat"])) := by cbv
  obtain ⟨ends, ascent, _⟩ := chain_outcome felineGraph_isBuilt "Dog"
  obtain ⟨_, _, circles, reports, sessions⟩ := chain_outcome felineGraph_isBuilt "Kitten"
  obtain ⟨passed, again, same, back⟩ := (reports _).mp kitten
  obtain ⟨rfl, last⟩ := List.append_inj' (Fault.cycle.inj same) rfl
  cases last
  have answered := congrArg Logged.outcome
    (sessions Profile.java.primitive? {} [.chain "Kitten", .chain "Dog"]).1
  rw [kitten] at answered
  exact ⟨felineGraph_isBuilt, ends.mp ⟨_, dog⟩, (ascent _).mp dog, circles.mp ⟨_, _, kitten⟩, back,
    answered⟩

end TypeGraph

end RamlTypes
