/-!
# Tables in insertion order

A table maps keys to values and remembers the order in which its keys were first written. Writing
to a key that is present replaces the value and keeps the key's place.
-/

namespace RamlTypes

/-- Entries with distinct keys, in the order in which the keys were first written. -/
structure Table (κ α : Type) where
  entries : List (κ × α)
  nodup : (entries.map Prod.fst).Nodup

namespace Table

variable {κ α β : Type}

def empty : Table κ α := ⟨[], .nil⟩

instance : Inhabited (Table κ α) := ⟨empty⟩

def keys (t : Table κ α) : List κ := t.entries.map Prod.fst

def values (t : Table κ α) : List α := t.entries.map Prod.snd

def size (t : Table κ α) : Nat := t.entries.length

variable [DecidableEq κ]

theorem lookup_cons (key : κ) (entry : κ × α) (rest : List (κ × α)) :
    (entry :: rest).lookup key = if entry.1 = key then some entry.2 else rest.lookup key := by
  rw [List.lookup_cons]
  by_cases same : entry.1 = key
  · simp [same]
  · have other : (key == entry.1) = false := by simpa using Ne.symm same
    simp [same, other]

/-- The value that stands under a key. -/
def find? (t : Table κ α) (key : κ) : Option α := t.entries.lookup key

/-- Replaces the value of the entry with the given key, or adds an entry at the end. -/
def insertIn (key : κ) (value : α) : List (κ × α) → List (κ × α)
  | [] => [(key, value)]
  | (k, a) :: rest => if k = key then (k, value) :: rest else (k, a) :: insertIn key value rest

theorem keys_insertIn (key : κ) (value : α) (entries : List (κ × α)) :
    (insertIn key value entries).map Prod.fst =
      if key ∈ entries.map Prod.fst then entries.map Prod.fst
      else entries.map Prod.fst ++ [key] := by
  induction entries with
  | nil => simp [insertIn]
  | cons entry rest ih =>
      obtain ⟨k, a⟩ := entry
      by_cases same : k = key
      · simp [insertIn, same]
      · have other : key ≠ k := fun h => same h.symm
        simp only [insertIn, if_neg same, List.map_cons, ih, List.mem_cons, other, false_or]
        split <;> simp

theorem nodup_keys_insertIn (key : κ) (value : α) (entries : List (κ × α))
    (nodup : (entries.map Prod.fst).Nodup) :
    ((insertIn key value entries).map Prod.fst).Nodup := by
  rw [keys_insertIn]
  split
  · exact nodup
  · rename_i absent
    refine List.nodup_append.mpr ⟨nodup, by simp, ?_⟩
    intro k member l single same
    simp only [List.mem_singleton] at single
    exact absent (single ▸ same ▸ member)

def insert (t : Table κ α) (key : κ) (value : α) : Table κ α :=
  ⟨insertIn key value t.entries, nodup_keys_insertIn key value t.entries t.nodup⟩

theorem keys_insert (t : Table κ α) (key : κ) (value : α) :
    (t.insert key value).keys = if key ∈ t.keys then t.keys else t.keys ++ [key] :=
  keys_insertIn key value t.entries

theorem find?_insert (t : Table κ α) (key : κ) (value : α) (k : κ) :
    (t.insert key value).find? k = if key = k then some value else t.find? k := by
  obtain ⟨entries, nodup⟩ := t
  simp only [find?, insert]
  clear nodup
  induction entries with
  | nil => simp [insertIn, lookup_cons]
  | cons entry rest ih =>
      obtain ⟨l, a⟩ := entry
      by_cases same : l = key
      · by_cases here : key = k <;> simp [insertIn, lookup_cons, same, here]
      · by_cases here : l = k
        · subst here
          simp [insertIn, lookup_cons, same, Ne.symm same]
        · simp [insertIn, lookup_cons, same, here, ih]

/-- Writes the given entries one after the other. -/
def insertAll (t : Table κ α) (entries : List (κ × α)) : Table κ α :=
  entries.foldl (fun t entry => t.insert entry.1 entry.2) t

def ofList (entries : List (κ × α)) : Table κ α := empty.insertAll entries

def contains (t : Table κ α) (key : κ) : Bool := (t.find? key).isSome

@[simp] theorem contains_iff (t : Table κ α) (key : κ) :
    t.contains key = true ↔ key ∈ t.keys := by
  rw [contains, find?, List.lookup_isSome_iff, keys, List.mem_map]
  refine exists_congr fun entry => and_congr_right fun _ => ?_
  rw [beq_iff_eq, eq_comm]

theorem mem_keys_of_find? {t : Table κ α} {key : κ} {value : α}
    (found : t.find? key = some value) : key ∈ t.keys := by
  rw [← contains_iff, contains, found]
  rfl

/-- The table with every value replaced by its image. -/
def map (f : κ → α → β) (t : Table κ α) : Table κ β :=
  ⟨t.entries.map fun entry => (entry.1, f entry.1 entry.2), by
    simpa [Function.comp_def] using t.nodup⟩

end Table

end RamlTypes
