import Mathlib.Data.List.Sort
import Mathlib.Data.String.Basic
import RamlTypes.Sorting

/-!
# Sorted names

Sorting puts names into the order of code points and forgets the order that they came in. Distinct
names stand in strictly increasing order. Whatever is sorted, leaving elements out before or after
sorting makes no difference, since elements that compare equal keep their order. So the order that
elements came in is forgotten only where no two of them are known by the same text.
-/
namespace RamlTypes

section Comparison

variable {α : Type} {le : α → α → Bool}

variable (total : ∀ a b, (le a b || le b a) = true)
  (trans : ∀ a b c, le a b = true → le b c = true → le a c = true)
include total trans

/-- Sorting by insertion is merge sort, for a comparison that orders all elements. -/
theorem sortWith_eq_mergeSort (xs : List α) : sortWith le xs = xs.mergeSort le := by
  induction xs with
  | nil => simp [sortWith]
  | cons a rest ih =>
    obtain ⟨front, back, sorted, sorted', ahead⟩ := List.mergeSort_cons trans total a rest
    have ordered := List.pairwise_mergeSort trans total (a :: rest)
    rw [sorted] at ordered ⊢
    rw [sortWith, ih, sorted']
    clear sorted sorted' ih
    -- The new element passes exactly those that it may not precede.
    induction front with
    | nil =>
      cases back with
      | nil => rfl
      | cons b back =>
        have before : le a b = true := (List.pairwise_cons.mp ordered).1 b List.mem_cons_self
        exact if_pos before
    | cons b front ih =>
      obtain ⟨first, later⟩ := List.forall_mem_cons.mp ahead
      rw [List.cons_append, List.cons_append, insertSorted, if_neg (by simpa using first),
        ih later ordered.of_cons]

theorem sortWith_perm (xs : List α) : (sortWith le xs).Perm xs :=
  sortWith_eq_mergeSort total trans xs ▸ List.mergeSort_perm xs le

theorem sortWith_pairwise (xs : List α) : (sortWith le xs).Pairwise fun a b => le a b = true :=
  sortWith_eq_mergeSort total trans xs ▸ List.pairwise_mergeSort trans total xs

/-- What is in order already stays as it is. -/
theorem sortWith_eq_self {xs : List α} (sorted : xs.Pairwise fun a b => le a b = true) :
    sortWith le xs = xs :=
  (sortWith_eq_mergeSort total trans xs).trans (List.mergeSort_of_pairwise sorted)

/-- The first element after sorting is the one that precedes all behind it and that none before it
may precede. -/
theorem head?_sortWith {before after : List α} {a : α} (first : ∀ b ∈ before, le b a = false)
    (last : ∀ b ∈ after, le a b = true) : (sortWith le (before ++ a :: after)).head? = some a := by
  induction before with
  | nil =>
    rw [List.nil_append, sortWith]
    cases sorted : sortWith le after with
    | nil => rfl
    | cons b rest =>
      have behind : b ∈ after :=
        (sortWith_perm total trans after).mem_iff.mp (sorted ▸ List.mem_cons_self)
      rw [insertSorted, if_pos (last b behind)]
      rfl
  | cons b before ih =>
    have tail := ih fun c member => first c (List.mem_cons_of_mem _ member)
    rw [List.cons_append, sortWith]
    cases sorted : sortWith le (before ++ a :: after) with
    | nil => simp [sorted] at tail
    | cons c rest =>
      rw [sorted] at tail
      cases tail
      rw [insertSorted, if_neg (by simp [first b])]
      rfl

/-- Sorting forgets the order that the elements came in, if no two of them stand level. -/
theorem sortWith_congr {xs ys : List α} (perm : xs.Perm ys)
    (antisymm : ∀ a ∈ xs, ∀ b ∈ xs, le a b = true → le b a = true → a = b) :
    sortWith le xs = sortWith le ys := by
  have sorted := sortWith_perm total trans xs
  have sorted' := sortWith_perm total trans ys
  refine List.Perm.eq_of_pairwise ?_ (sortWith_pairwise total trans xs)
    (sortWith_pairwise total trans ys) (sorted.trans (perm.trans sorted'.symm))
  intro a b here there
  exact antisymm a (sorted.mem_iff.mp here) b (perm.mem_iff.mpr (sorted'.mem_iff.mp there))

omit total in
theorem insertSorted_filter (keep : α → Bool) (a : α) {xs : List α}
    (sorted : xs.Pairwise fun a b => le a b = true) :
    (insertSorted le a xs).filter keep =
      if keep a then insertSorted le a (xs.filter keep) else xs.filter keep := by
  induction xs with
  | nil => cases kept : keep a <;> simp [insertSorted, kept]
  | cons b rest ih =>
    have head : ∀ c ∈ rest, le b c = true := (List.pairwise_cons.mp sorted).1
    rw [insertSorted]
    split
    next before =>
      cases kept : keep a with
      | false => simp [kept]
      | true =>
        rw [List.filter_cons_of_pos kept, if_pos rfl]
        -- The element precedes the first one that is kept, whether that is `b` or a later one.
        cases shown : (b :: rest).filter keep with
        | nil => rfl
        | cons c shown' =>
          have member : c ∈ b :: rest := List.mem_of_mem_filter (shown ▸ List.mem_cons_self)
          have precedes : le a c = true := by
            rcases List.mem_cons.mp member with rfl | later
            · exact before
            · exact trans a b c before (head c later)
          rw [insertSorted, if_pos precedes]
    next behind =>
      cases kept : keep b with
      | false => rw [List.filter_cons_of_neg (by simp [kept]), ih sorted.of_cons,
          List.filter_cons_of_neg (by simp [kept])]
      | true =>
        rw [List.filter_cons_of_pos kept, ih sorted.of_cons, List.filter_cons_of_pos kept]
        split
        · rw [insertSorted, if_neg behind]
        · rfl

/-- Leaving elements out before sorting is leaving them out afterwards. -/
theorem sortWith_filter (keep : α → Bool) (xs : List α) :
    (sortWith le xs).filter keep = sortWith le (xs.filter keep) := by
  induction xs with
  | nil => rfl
  | cons a rest ih =>
    rw [sortWith, insertSorted_filter trans keep a (sortWith_pairwise total trans rest), ih]
    cases kept : keep a with
    | true => rw [if_pos rfl, List.filter_cons_of_pos kept, sortWith]
    | false => rw [if_neg (by simp), List.filter_cons_of_neg (by simp [kept])]

end Comparison

/-- Where no element of a kind stands behind one of another kind, those of the kind come first. -/
theorem filter_append_filter_of_pairwise {α : Type} {keep : α → Bool} {xs : List α}
    (ahead : xs.Pairwise fun a b => keep b = true → keep a = true) :
    xs.filter keep ++ xs.filter (fun a => !keep a) = xs := by
  induction xs with
  | nil => rfl
  | cons a rest ih =>
    obtain ⟨first, rest_ahead⟩ := List.pairwise_cons.mp ahead
    cases kept : keep a with
    | true => simpa [kept] using ih rest_ahead
    | false =>
      -- Behind the first element of another kind there are none of the kind.
      have none : ∀ b ∈ rest, keep b = false := fun b member => by
        by_contra other
        have wrong := first b member (by simpa using other)
        simp [kept] at wrong
      have gone : rest.filter keep = [] := List.filter_eq_nil_iff.mpr (by simpa using none)
      have all : rest.filter (fun b => !keep b) = rest :=
        List.filter_eq_self.mpr (by simpa using none)
      simp [kept, gone, all]

section Keys

variable {α : Type} (key : α → String)

private theorem key_total (a b : α) :
    (decide (key a ≤ key b) || decide (key b ≤ key a)) = true := by
  simpa using le_total (key a) (key b)

private theorem key_trans (a b c : α) (first : decide (key a ≤ key b) = true)
    (second : decide (key b ≤ key c) = true) : decide (key a ≤ key c) = true :=
  decide_eq_true ((of_decide_eq_true first).trans (of_decide_eq_true second))

theorem sortOn_perm (xs : List α) : (sortOn key xs).Perm xs :=
  sortWith_perm (key_total key) (key_trans key) xs

@[simp] theorem mem_sortOn {xs : List α} {a : α} : a ∈ sortOn key xs ↔ a ∈ xs :=
  (sortOn_perm key xs).mem_iff

@[simp] theorem length_sortOn (xs : List α) : (sortOn key xs).length = xs.length :=
  (sortOn_perm key xs).length_eq

theorem sortOn_pairwise (xs : List α) : (sortOn key xs).Pairwise fun a b => key a ≤ key b :=
  (sortWith_pairwise (key_total key) (key_trans key) xs).imp of_decide_eq_true

theorem sortOn_filter (keep : α → Bool) (xs : List α) :
    (sortOn key xs).filter keep = sortOn key (xs.filter keep) :=
  sortWith_filter (key_total key) (key_trans key) keep xs

/-- Elements that are all known by the same text keep their order. -/
theorem sortOn_eq_self_of_tied {xs : List α} {text : String} (tied : ∀ a ∈ xs, key a = text) :
    sortOn key xs = xs := by
  apply sortWith_eq_self (key_total key) (key_trans key)
  apply List.pairwise_of_forall_mem_list
  intro a first b second
  rw [tied a first, tied b second]
  exact decide_eq_true le_rfl

/-- The texts that sorted elements are known by are sorted, whatever order the elements came in. -/
theorem map_sortOn (xs : List α) : (sortOn key xs).map key = sortNames (xs.map key) := by
  have permuted : ((sortOn key xs).map key).Perm (sortNames (xs.map key)) :=
    ((sortOn_perm key xs).map key).trans (sortOn_perm id (xs.map key)).symm
  refine List.Perm.eq_of_pairwise (fun a b _ _ => le_antisymm) ?_
    (sortOn_pairwise id (xs.map key)) permuted
  exact List.pairwise_map.mpr (sortOn_pairwise key xs)

variable {key}

/-- Sorting forgets the order that the elements came in, if each is known by a text of its own. -/
theorem sortOn_congr {xs ys : List α} (perm : xs.Perm ys)
    (apart : ∀ a ∈ xs, ∀ b ∈ xs, key a = key b → a = b) : sortOn key xs = sortOn key ys :=
  sortWith_congr (key_total key) (key_trans key) perm fun a here b there before behind =>
    apart a here b there (le_antisymm (of_decide_eq_true before) (of_decide_eq_true behind))

/-- Elements are known from their texts where no two of them have the same one. -/
theorem eq_of_map_key_eq {xs ys : List α} (texts : xs.map key = ys.map key)
    (apart : ∀ x ∈ xs, ∀ y ∈ ys, key y = key x → y = x) : xs = ys := by
  induction xs generalizing ys with
  | nil => exact (List.map_eq_nil_iff.mp texts.symm).symm
  | cons x xs ih =>
    cases ys with
    | nil => cases texts
    | cons y ys =>
      obtain ⟨first, rest⟩ := List.cons.inj texts
      cases apart x List.mem_cons_self y List.mem_cons_self first.symm
      rw [ih rest fun x' here y' there =>
        apart x' (List.mem_cons_of_mem _ here) y' (List.mem_cons_of_mem _ there)]

end Keys

theorem sortNames_pairwise (names : List String) :
    (sortNames names).Pairwise fun a b => decide (a ≤ b) = true :=
  (sortOn_pairwise id names).imp decide_eq_true

/-- Sorting forgets the order that the names came in. -/
theorem sortNames_congr {names names' : List String} (perm : names.Perm names') :
    sortNames names = sortNames names' :=
  sortOn_congr perm fun _ _ _ _ same => same

section Keys

variable {α : Type} {key : α → String} {xs ys : List α}

/-- The end of a sorted list forgets the order that the elements came in, if each element of it is
known by a text of its own. -/
theorem drop_sortOn_congr (perm : xs.Perm ys) {k : Nat}
    (apart : ∀ x ∈ (sortOn key xs).drop k, ∀ y ∈ xs, key y = key x → y = x) :
    (sortOn key xs).drop k = (sortOn key ys).drop k := by
  have texts : ((sortOn key xs).drop k).map key = ((sortOn key ys).drop k).map key := by
    rw [List.map_drop, List.map_drop, map_sortOn, map_sortOn, sortNames_congr (perm.map key)]
  refine eq_of_map_key_eq texts fun x here y there tied => ?_
  have member : y ∈ ys := (mem_sortOn key).mp (List.mem_of_mem_drop there)
  exact apart x here y (perm.mem_iff.mpr member) tied

private theorem eq_of_head?_eq_getLast? (nodup : xs.Nodup) (same : xs.head? = xs.getLast?) {a b : α}
    (first : a ∈ xs) (second : b ∈ xs) : a = b := by
  cases xs with
  | nil => cases first
  | cons x rest =>
    rcases rest.eq_nil_or_concat' with rfl | ⟨front, last, rfl⟩
    · rw [List.mem_singleton.mp first, List.mem_singleton.mp second]
    · -- The last of several elements would come again at the start.
      rw [← List.cons_append, List.getLast?_concat, List.cons_append, List.head?_cons] at same
      cases same
      simp at nodup

/-- Elements with the same text keep their order. So where a list and its reverse are sorted to
lists with the same end, an element of that is the only one with its text. -/
theorem eq_of_drop_sortOn_reverse {k : Nat} (nodup : xs.Nodup)
    (same : (sortOn key xs.reverse).drop k = (sortOn key xs).drop k) {a b : α}
    (listed : a ∈ (sortOn key xs).drop k) (member : b ∈ xs) (tied : key b = key a) : b = a := by
  let keep (c : α) : Bool := key c = key a
  have tied_group (ys : List α) : ∀ c ∈ ys.filter keep, key c = key a := by
    intro c kept
    simpa [keep] using (List.mem_filter.mp kept).2
  have forward : (sortOn key xs).filter keep = xs.filter keep := by
    rw [sortOn_filter, sortOn_eq_self_of_tied key (tied_group xs)]
  have backward : (sortOn key xs.reverse).filter keep = (xs.filter keep).reverse := by
    rw [sortOn_filter, sortOn_eq_self_of_tied key (tied_group xs.reverse), List.filter_reverse]
  have kept : a ∈ ((sortOn key xs).drop k).filter keep :=
    List.mem_filter.mpr ⟨listed, by simp [keep]⟩
  -- The end of either list shows the last of the elements with the text.
  have last {ys : List α} (ends : (ys.drop k).filter keep = ((sortOn key xs).drop k).filter keep) :
      (ys.filter keep).getLast? = (((sortOn key xs).drop k).filter keep).getLast? := by
    obtain ⟨front, split⟩ := (List.drop_suffix k ys).filter keep
    rw [← split, ends, List.getLast?_append_of_ne_nil _ (List.ne_nil_of_mem kept)]
  have ends : (xs.filter keep).head? = (xs.filter keep).getLast? := by
    rw [← List.getLast?_reverse, ← backward, last (by rw [same]), ← last rfl, forward]
  have sorted_mem : a ∈ xs := (mem_sortOn key).mp (List.mem_of_mem_drop listed)
  exact eq_of_head?_eq_getLast? (nodup.filter keep) ends
    (List.mem_filter.mpr ⟨member, by simp [keep, tied]⟩)
    (List.mem_filter.mpr ⟨sorted_mem, by simp [keep]⟩)

end Keys

theorem sortNames_strict {names : List String} (nodup : names.Nodup) :
    (sortNames names).Pairwise (· < ·) := by
  have distinct : (sortNames names).Pairwise (· ≠ ·) :=
    (sortOn_perm id names).nodup_iff.mpr nodup
  refine ((sortNames_pairwise names).and distinct).imp ?_
  rintro a b ⟨ordered, apart⟩
  exact lt_of_le_of_ne (of_decide_eq_true ordered) apart

end RamlTypes
