import Mathlib.Data.List.Forall2
import Mathlib.Data.List.Induction
import RamlTypes.Table

/-!
# Lookups in tables

A table holds at most one value for a key, so looking a key up and finding its entry is the same.
Entries that are written over a table replace those with the same keys where they stand, and the
others follow behind. Lists whose entries are related one by one, and have the same keys, make
tables that are related in this way.
-/
namespace RamlTypes

section Duplicates

variable {α : Type} [DecidableEq α]

theorem nodup_eraseDups (xs : List α) : xs.eraseDups.Nodup := by
  induction xs using List.reverseRecOn with
  | nil => exact .nil
  | append_singleton xs x ih =>
    rw [List.eraseDups_append]
    by_cases old : x ∈ xs
    · simpa [List.removeAll, old] using ih
    · rw [List.nodup_append]
      refine ⟨ih, by simp [List.removeAll, old, List.eraseDups_cons], fun y before z last => ?_⟩
      rintro rfl
      simp_all [List.removeAll]

theorem eraseDups_of_nodup {xs : List α} (nodup : xs.Nodup) : xs.eraseDups = xs := by
  induction xs with
  | nil => rfl
  | cons x rest ih =>
    obtain ⟨fresh, nodup'⟩ := List.nodup_cons.mp nodup
    have others : rest.filter (fun y => !y == x) = rest := by
      refine List.filter_eq_self.mpr fun y member => ?_
      have apart : y ≠ x := fun same => fresh (same ▸ member)
      simpa using apart
    rw [List.eraseDups_cons, others, ih nodup']

theorem filter_eraseDups (keep : α → Bool) (xs : List α) :
    xs.eraseDups.filter keep = (xs.filter keep).eraseDups := by
  induction xs using List.reverseRecOn with
  | nil => rfl
  | append_singleton xs x ih =>
    rw [List.eraseDups_append, List.filter_append, List.filter_append, List.eraseDups_append, ih]
    congr 1
    -- The last element is there before either way, or in neither list.
    by_cases old : x ∈ xs <;> cases kept : keep x <;>
      simp [List.removeAll, List.eraseDups_cons, old, kept]

end Duplicates

namespace Table

variable {κ α β : Type} [DecidableEq κ]

theorem lookup_eq_none_iff {key : κ} {entries : List (κ × α)} :
    entries.lookup key = none ↔ key ∉ entries.map Prod.fst := by
  rw [List.lookup_eq_none_iff, List.mem_map, not_exists]
  refine forall_congr' fun entry => ?_
  rw [bne_iff_ne, not_and, ne_comm]

theorem mem_of_lookup {key : κ} {value : α} {entries : List (κ × α)}
    (found : entries.lookup key = some value) : (key, value) ∈ entries := by
  obtain ⟨before, after, rfl, _⟩ := List.lookup_eq_some_iff.mp found
  simp

theorem lookup_of_mem {key : κ} {value : α} {entries : List (κ × α)}
    (nodup : (entries.map Prod.fst).Nodup) (member : (key, value) ∈ entries) :
    entries.lookup key = some value := by
  obtain ⟨before, after, rfl⟩ := List.append_of_mem member
  refine List.lookup_eq_some_iff.mpr ⟨before, after, rfl, fun entry earlier => ?_⟩
  -- An earlier entry has another key, so it does not hide this one.
  rw [List.map_append, List.nodup_append] at nodup
  exact bne_iff_ne.mpr (nodup.2.2 entry.1 (List.mem_map_of_mem earlier) key (by simp)).symm

theorem find?_eq_some_iff (t : Table κ α) (key : κ) (value : α) :
    t.find? key = some value ↔ (key, value) ∈ t.entries :=
  ⟨mem_of_lookup, lookup_of_mem t.nodup⟩

/-- The order of the entries does not matter for a lookup. -/
theorem find?_congr {t t' : Table κ α} (perm : t.entries.Perm t'.entries) (key : κ) :
    t.find? key = t'.find? key := by
  apply Option.ext
  intro value
  rw [find?_eq_some_iff, find?_eq_some_iff, perm.mem_iff]

theorem find?_map (f : κ → α → β) (t : Table κ α) (key : κ) :
    (t.map f).find? key = (t.find? key).map (f key) := by
  obtain ⟨entries, nodup⟩ := t
  simp only [find?, map]
  clear nodup
  induction entries with
  | nil => rfl
  | cons entry rest ih =>
    by_cases same : entry.1 = key
    · simp [lookup_cons, same]
    · simp [lookup_cons, same, ih]

theorem mem_insertIn {key : κ} {value : α} {entries : List (κ × α)} {entry : κ × α}
    (member : entry ∈ insertIn key value entries) : entry = (key, value) ∨ entry ∈ entries := by
  induction entries with
  | nil => simpa [insertIn] using member
  | cons first rest ih =>
    obtain ⟨k, a⟩ := first
    simp only [insertIn] at member
    split at member
    next same =>
      rcases List.mem_cons.mp member with rfl | later
      · exact .inl (by simp [same])
      · exact .inr (by simp [later])
    · rcases List.mem_cons.mp member with rfl | later
      · exact .inr (by simp)
      · exact (ih later).imp_right (List.mem_cons_of_mem _)

/-- Whatever holds of the entries of a table and of all that is written holds afterwards. -/
theorem forall_mem_insertAll {holds : κ × α → Prop} {t : Table κ α} {entries : List (κ × α)}
    (before : ∀ entry ∈ t.entries, holds entry) (written : ∀ entry ∈ entries, holds entry) :
    ∀ entry ∈ (t.insertAll entries).entries, holds entry := by
  induction entries generalizing t with
  | nil => exact before
  | cons first rest ih =>
    refine ih ?_ fun entry member => written entry (by simp [member])
    intro entry member
    rcases mem_insertIn member with rfl | old
    · exact written _ (by simp)
    · exact before entry old

theorem forall_mem_ofList {holds : κ × α → Prop} {entries : List (κ × α)}
    (written : ∀ entry ∈ entries, holds entry) :
    ∀ entry ∈ (ofList entries).entries, holds entry :=
  forall_mem_insertAll (by simp [empty]) written

/-- What is not written stays as it was. -/
theorem find?_insertAll_of_not_mem {key : κ} {entries : List (κ × α)}
    (absent : key ∉ entries.map Prod.fst) (t : Table κ α) :
    (t.insertAll entries).find? key = t.find? key := by
  induction entries generalizing t with
  | nil => rfl
  | cons first rest ih =>
    simp only [List.map_cons, List.mem_cons, not_or] at absent
    have next := ih absent.2 (t.insert first.1 first.2)
    rwa [find?_insert, if_neg (Ne.symm absent.1)] at next

private theorem insertIn_of_absent {key : κ} {value : α} {entries : List (κ × α)}
    (absent : key ∉ entries.map Prod.fst) :
    insertIn key value entries = entries ++ [(key, value)] := by
  induction entries with
  | nil => rfl
  | cons first rest ih =>
    obtain ⟨k, a⟩ := first
    simp only [List.map_cons, List.mem_cons, not_or] at absent
    simp [insertIn, Ne.symm absent.1, ih absent.2]

private theorem insertIn_of_present {key : κ} {value : α} {entries : List (κ × α)}
    (nodup : (entries.map Prod.fst).Nodup) (present : key ∈ entries.map Prod.fst) :
    insertIn key value entries =
      entries.map fun entry => (entry.1, if key = entry.1 then value else entry.2) := by
  induction entries with
  | nil => simp at present
  | cons first rest ih =>
    obtain ⟨k, a⟩ := first
    obtain ⟨apart, nodup'⟩ := List.nodup_cons.mp nodup
    by_cases same : k = key
    · -- The key does not come again, so the rest stays as it is.
      have others : rest.map (fun entry => (entry.1, if key = entry.1 then value else entry.2)) =
          rest := by
        refine (List.map_congr_left fun entry member => ?_).trans (List.map_id rest)
        have later : entry.1 ∈ rest.map Prod.fst := List.mem_map_of_mem member
        have other : key ≠ entry.1 := fun here => apart (same.trans here ▸ later)
        rw [if_neg other, id]
      simp [insertIn, same, others]
    · have behind : key ∈ rest.map Prod.fst := by simpa [Ne.symm same] using present
      simp [insertIn, same, Ne.symm same, ih nodup' behind]

/-- Entries with others written over them: what is there keeps its place and takes the value that is
written under its key, and what is written under other keys comes last. -/
def overwritten (old written : List (κ × α)) : List (κ × α) :=
  old.map (fun entry => (entry.1, (written.lookup entry.1).getD entry.2)) ++
    written.filter (fun entry => entry.1 ∉ old.map Prod.fst)

/-- Of entries with distinct keys, the first is written like the others. -/
private theorem overwritten_insertIn {key : κ} {value : α} {old rest : List (κ × α)}
    (nodup : (old.map Prod.fst).Nodup) (apart : key ∉ rest.map Prod.fst) :
    overwritten (insertIn key value old) rest = overwritten old ((key, value) :: rest) := by
  have unwritten : rest.lookup key = none := lookup_eq_none_iff.mpr apart
  by_cases present : key ∈ old.map Prod.fst
  · rw [insertIn_of_present nodup present, overwritten, overwritten, List.map_map, List.map_map,
      List.filter_cons_of_neg (by simpa using present)]
    congr 1
    apply List.map_congr_left
    intro entry _
    by_cases here : key = entry.1
    · simp [lookup_cons, ← here, unwritten]
    · simp [lookup_cons, here]
  · rw [insertIn_of_absent present, overwritten, overwritten, List.map_append, List.append_assoc,
      List.filter_cons_of_pos (by simpa using present)]
    congr 1
    · apply List.map_congr_left
      intro entry member
      have other : key ≠ entry.1 := fun here => present (here ▸ List.mem_map_of_mem member)
      rw [lookup_cons, if_neg other]
    · simp only [List.map_cons, List.map_nil, unwritten, Option.getD_none, List.cons_append,
        List.nil_append, List.cons.injEq, true_and]
      apply List.filter_congr
      intro entry member
      have other : entry.1 ≠ key := fun here => apart (here ▸ List.mem_map_of_mem member)
      simp [other]

/-- Entries with distinct keys are written over those of a table in one step. -/
theorem entries_insertAll {t : Table κ α} {written : List (κ × α)}
    (nodup : (written.map Prod.fst).Nodup) :
    (t.insertAll written).entries = overwritten t.entries written := by
  induction written generalizing t with
  | nil => simp [insertAll, overwritten]
  | cons first rest ih =>
    obtain ⟨apart, nodup'⟩ := List.nodup_cons.mp nodup
    rw [← overwritten_insertIn t.nodup apart]
    exact ih nodup'

/-- The keys that are written and not there yet come last. -/
theorem keys_insertAll {written : List (κ × α)} (nodup : (written.map Prod.fst).Nodup)
    (t : Table κ α) :
    (t.insertAll written).keys = t.keys ++ (written.map Prod.fst).filter (· ∉ t.keys) := by
  rw [keys, entries_insertAll nodup, overwritten, List.map_append, List.map_map, List.filter_map]
  rfl

/-- What is written under a key stands there, and what is not written stays as it was. -/
theorem find?_insertAll {written : List (κ × α)} (nodup : (written.map Prod.fst).Nodup)
    (t : Table κ α) (key : κ) :
    (t.insertAll written).find? key = (written.lookup key).or (t.find? key) := by
  induction written generalizing t with
  | nil => rfl
  | cons first rest ih =>
    obtain ⟨apart, nodup'⟩ := List.nodup_cons.mp nodup
    have next := ih nodup' (t.insert first.1 first.2)
    rw [find?_insert] at next
    by_cases here : first.1 = key
    · have unwritten : rest.lookup key = none := lookup_eq_none_iff.mpr (here ▸ apart)
      simpa [lookup_cons, here, unwritten, insertAll] using next
    · simpa [lookup_cons, here, insertAll] using next

/-- Entries with distinct keys are a table as they stand. -/
theorem entries_ofList {entries : List (κ × α)} (nodup : (entries.map Prod.fst).Nodup) :
    (ofList entries).entries = entries := by
  simp [ofList, entries_insertAll nodup, overwritten, empty]

/-- A new key that is written last is the last one. -/
theorem entries_ofList_append {key : κ} {value : α} {entries : List (κ × α)}
    (absent : key ∉ (ofList entries).keys) :
    (ofList (entries ++ [(key, value)])).entries = (ofList entries).entries ++ [(key, value)] := by
  have last : ofList (entries ++ [(key, value)]) = (ofList entries).insert key value := by
    rw [ofList, insertAll, List.foldl_append]
    rfl
  rw [last]
  exact insertIn_of_absent absent

/-! ### Two tables -/

section Related

variable {related : κ × α → κ × β → Prop} {entries : List (κ × α)} {entries' : List (κ × β)}

theorem forall₂_insertIn (keyed : ∀ x y, related x y → x.1 = y.1) {x : κ × α} {y : κ × β}
    (new : related x y) (old : List.Forall₂ related entries entries') :
    List.Forall₂ related (insertIn x.1 x.2 entries) (insertIn y.1 y.2 entries') := by
  obtain ⟨key, value⟩ := x
  obtain ⟨key', value'⟩ := y
  obtain rfl : key = key' := keyed _ _ new
  induction old with
  | nil => exact .cons new .nil
  | @cons first first' rest rest' same behind ih =>
    obtain ⟨k, a⟩ := first
    obtain ⟨k', a'⟩ := first'
    obtain rfl : k = k' := keyed _ _ same
    rw [insertIn, insertIn]
    by_cases here : k = key
    · rw [if_pos here, if_pos here, here]
      exact .cons new behind
    · rw [if_neg here, if_neg here]
      exact .cons same ih

theorem forall₂_insertAll (keyed : ∀ x y, related x y → x.1 = y.1)
    (written : List.Forall₂ related entries entries') {t : Table κ α} {t' : Table κ β}
    (old : List.Forall₂ related t.entries t'.entries) :
    List.Forall₂ related (t.insertAll entries).entries (t'.insertAll entries').entries := by
  induction written generalizing t t' with
  | nil => exact old
  | cons first _ ih => exact ih (forall₂_insertIn keyed first old)

theorem forall₂_ofList (keyed : ∀ x y, related x y → x.1 = y.1)
    (written : List.Forall₂ related entries entries') :
    List.Forall₂ related (ofList entries).entries (ofList entries').entries :=
  forall₂_insertAll keyed written .nil

theorem contains_congr {t : Table κ α} {t' : Table κ β} (same : t.keys = t'.keys) :
    t.contains = t'.contains := by
  funext key
  apply Bool.eq_iff_iff.mpr
  rw [contains_iff, contains_iff, same]

end Related

end Table

end RamlTypes
