/-!
# Looking into a text
-/

namespace RamlTypes.Text

/-- Whether `part` occurs somewhere in a text. -/
def occursIn (part : List Char) : List Char → Bool
  | [] => part.isEmpty
  | c :: rest => part.isPrefixOf (c :: rest) || occursIn part rest

/-- The pieces of a text between the occurrences of a character; there is always one more piece
than occurrences. -/
def splitAt (separator : Char) : List Char → List (List Char)
  | [] => [[]]
  | c :: rest =>
      if c = separator then [] :: splitAt separator rest
      else match splitAt separator rest with
        | [] => [[c]]
        | piece :: pieces => (c :: piece) :: pieces

theorem length_le_of_mem_splitAt {separator : Char} {cs piece : List Char}
    (member : piece ∈ splitAt separator cs) : piece.length ≤ cs.length := by
  induction cs generalizing piece with
  | nil => simp_all [splitAt]
  | cons c rest ih =>
      simp only [splitAt] at member
      split at member
      · rcases List.mem_cons.mp member with rfl | later
        · simp
        · exact Nat.le_succ_of_le (ih later)
      · split at member
        · simp_all
        · rename_i first pieces pieces_eq
          rcases List.mem_cons.mp member with rfl | later
          · have := @ih first (by simp [pieces_eq])
            simp only [List.length_cons]
            omega
          · exact Nat.le_succ_of_le (ih (by simp [pieces_eq, later]))

/-- Where the separator occurs, every piece is shorter than the text. -/
theorem length_lt_of_mem_splitAt {separator : Char} {cs piece : List Char}
    (occurs : separator ∈ cs) (member : piece ∈ splitAt separator cs) :
    piece.length < cs.length := by
  induction cs generalizing piece with
  | nil => simp at occurs
  | cons c rest ih =>
      simp only [splitAt] at member
      split at member
      · rcases List.mem_cons.mp member with rfl | later
        · simp
        · have := length_le_of_mem_splitAt later
          simp only [List.length_cons]
          omega
      · rename_i other
        have later : separator ∈ rest := by
          rcases List.mem_cons.mp occurs with same | later
          · exact absurd same.symm other
          · exact later
        split at member
        · have := List.length_pos_of_mem later
          simp_all
        · rename_i first pieces pieces_eq
          rcases List.mem_cons.mp member with rfl | inside
          · have := @ih first later (by simp [pieces_eq])
            simp only [List.length_cons]
            omega
          · have := @ih piece later (by simp [pieces_eq, inside])
            simp only [List.length_cons]
            omega

variable {separator : Char}

theorem splitAt_cons_other {c : Char} (other : c ≠ separator) {cs first : List Char}
    {rest : List (List Char)} (split : splitAt separator cs = first :: rest) :
    splitAt separator (c :: cs) = (c :: first) :: rest := by
  simp [splitAt, other, split]

theorem exists_splitAt (separator : Char) (cs : List Char) :
    ∃ first rest, splitAt separator cs = first :: rest := by
  induction cs with
  | nil => exact ⟨[], [], rfl⟩
  | cons c cs ih =>
    by_cases same : c = separator
    · exact ⟨[], splitAt separator cs, by simp [splitAt, same]⟩
    · obtain ⟨first, rest, split⟩ := ih
      exact ⟨c :: first, rest, splitAt_cons_other same split⟩

theorem splitAt_of_not_mem {cs : List Char} (absent : separator ∉ cs) :
    splitAt separator cs = [cs] := by
  induction cs with
  | nil => rfl
  | cons c cs ih =>
    simp only [List.mem_cons, not_or] at absent
    exact splitAt_cons_other (Ne.symm absent.1) (ih absent.2)

theorem splitAt_append_separator (left right : List Char) :
    splitAt separator (left ++ separator :: right) =
      splitAt separator left ++ splitAt separator right := by
  induction left with
  | nil => simp [splitAt]
  | cons c left ih =>
    by_cases same : c = separator
    · simp [splitAt, same, ih]
    · obtain ⟨first, rest, split⟩ := exists_splitAt separator left
      rw [List.cons_append, splitAt_cons_other same split]
      apply splitAt_cons_other same
      rw [ih, split]
      rfl

/-- A text without the separator goes behind the last piece. -/
theorem splitAt_append {tail : List Char} (absent : separator ∉ tail) (cs : List Char) :
    ∃ front last, splitAt separator cs = front ++ [last] ∧
      splitAt separator (cs ++ tail) = front ++ [last ++ tail] := by
  induction cs with
  | nil => exact ⟨[], [], rfl, splitAt_of_not_mem absent⟩
  | cons c cs ih =>
    obtain ⟨front, last, split, split'⟩ := ih
    by_cases same : c = separator
    · exact ⟨[] :: front, last, by simp [splitAt, same, split], by simp [splitAt, same, split']⟩
    · -- The character joins the first piece, which may be the last one as well.
      cases front with
      | nil =>
        exact ⟨[], c :: last, splitAt_cons_other same split, splitAt_cons_other same split'⟩
      | cons first front =>
        exact ⟨(c :: first) :: front, last, splitAt_cons_other same split,
          splitAt_cons_other same split'⟩

theorem mem_of_mem_splitAt {separator c : Char} {cs piece : List Char}
    (member : piece ∈ splitAt separator cs) (inside : c ∈ piece) : c ∈ cs := by
  induction cs generalizing piece with
  | nil => simp_all [splitAt]
  | cons d cs ih =>
    obtain ⟨first, rest, split⟩ := exists_splitAt separator cs
    by_cases same : d = separator
    · simp only [splitAt, if_pos same, List.mem_cons] at member
      rcases member with rfl | later
      · simp at inside
      · simp [ih later inside]
    · rw [splitAt_cons_other same split] at member
      rcases List.mem_cons.mp member with rfl | later
      · rcases List.mem_cons.mp inside with rfl | inside
        · simp
        · exact List.mem_cons_of_mem _ (ih (by simp [split]) inside)
      · exact List.mem_cons_of_mem _ (ih (by simp [split, later]) inside)

end RamlTypes.Text
