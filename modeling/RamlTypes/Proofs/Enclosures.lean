import RamlTypes.Proofs.Expressions

/-!
# What stands around an expression

White space around a text and parentheses around the whole of it do not change what the text is read
as. Suffixes do, but behind them the expression is the same. Which parentheses enclose a whole text
is found by counting, and the count is right wherever every parenthesis has its partner.
-/
namespace RamlTypes

namespace Text

theorem trim_cons_blank {c : Char} (blank : isBlank c = true) (cs : List Char) :
    trim (c :: cs) = trim cs := by
  simp [trim, trimLeft, blank]

theorem trimRight_append_blank {c : Char} (blank : isBlank c = true) (cs : List Char) :
    trimRight (cs ++ [c]) = trimRight cs :=
  List.rdropWhile_concat_pos isBlank cs c blank

theorem trimLeft_append {cs : List Char} (inside : trimLeft cs ≠ []) (tail : List Char) :
    trimLeft (cs ++ tail) = trimLeft cs ++ tail := by
  simp only [trimLeft] at inside ⊢
  rw [List.dropWhile_append, if_neg (by simpa using inside)]

theorem trim_append_blank {c : Char} (blank : isBlank c = true) (cs : List Char) :
    trim (cs ++ [c]) = trim cs := by
  by_cases inside : trimLeft cs = []
  · -- A text of white space only is trimmed from the left as a whole.
    have gone : trimLeft (cs ++ [c]) = [] := by
      simp only [trimLeft] at inside ⊢
      simp [List.dropWhile_append, inside, blank]
    rw [trim, trim, inside, gone]
  · rw [trim, trim, trimLeft_append inside, trimRight_append_blank blank]

theorem trimRight_append {tail : List Char} {c : Char} (solid : isBlank c = false)
    (cs : List Char) (last : tail.getLast? = some c) : trimRight (cs ++ tail) = cs ++ tail := by
  obtain ⟨front, rfl⟩ := List.getLast?_eq_some_iff.mp last
  rw [← List.append_assoc]
  exact List.rdropWhile_concat_neg isBlank _ c (by simp [solid])

/-- A text with no white space at its ends is trimmed already. -/
theorem trim_eq_self {cs : List Char} (first : ∀ c, cs.head? = some c → isBlank c = false)
    (last : ∀ c, cs.getLast? = some c → isBlank c = false) : trim cs = cs := by
  cases cs with
  | nil => rfl
  | cons c rest =>
    have left : trimLeft (c :: rest) = c :: rest := by simp [trimLeft, first c rfl]
    obtain ⟨front, d, split⟩ := List.eq_nil_or_concat (c :: rest) |>.resolve_left (by simp)
    rw [List.concat_eq_append] at split
    have solid := last d (by simp [split])
    rw [trim, left, split]
    exact List.rdropWhile_concat_neg isBlank _ d (by simp [solid])

end Text

namespace TypeExpr

open Text

/-! ### Parentheses -/

/-- A text in which every parenthesis has its partner. -/
inductive Balanced : List Char → Prop where
  | nil : Balanced []
  | char {c : Char} {rest : List Char} (notOpening : c ≠ '(') (notClosing : c ≠ ')')
      (balanced : Balanced rest) : Balanced (c :: rest)
  | group {inside rest : List Char} (balanced : Balanced inside) (after : Balanced rest) :
      Balanced ('(' :: (inside ++ ')' :: rest))

theorem Balanced.append {left right : List Char} (first : Balanced left) (second : Balanced right) :
    Balanced (left ++ right) := by
  induction first with
  | nil => exact second
  | char notOpening notClosing _ ih => exact .char notOpening notClosing ih
  | group inside _ _ ih => simpa using Balanced.group inside ih

theorem Balanced.of_plain {cs : List Char} (plain : ∀ c ∈ cs, c ≠ '(' ∧ c ≠ ')') :
    Balanced cs := by
  induction cs with
  | nil => exact .nil
  | cons c rest ih =>
    obtain ⟨notOpening, notClosing⟩ := plain c (by simp)
    exact .char notOpening notClosing (ih fun d member => plain d (by simp [member]))

/-- Before the end of a text, each character changes the depth and is checked. -/
theorem closesEarly_of_more (depth : Nat) (c : Char) {rest : List Char} (more : rest ≠ []) :
    closesEarly depth (c :: rest) =
      let after := if c = '(' then depth + 1 else if c = ')' then depth - 1 else depth
      after == 0 || closesEarly after rest := by
  obtain ⟨d, others, rfl⟩ := List.exists_cons_of_ne_nil more
  rfl

theorem closesEarly_opening (depth : Nat) {rest : List Char} (more : rest ≠ []) :
    closesEarly depth ('(' :: rest) = closesEarly (depth + 1) rest := by
  simp [closesEarly_of_more depth '(' more]

theorem closesEarly_closing (depth : Nat) {rest : List Char} (more : rest ≠ []) :
    closesEarly (depth + 1) (')' :: rest) = (depth == 0 || closesEarly depth rest) := by
  simp [closesEarly_of_more (depth + 1) ')' more]

theorem closesEarly_char (depth : Nat) {c : Char} (notOpening : c ≠ '(') (notClosing : c ≠ ')')
    {rest : List Char} (more : rest ≠ []) :
    closesEarly depth (c :: rest) = (depth == 0 || closesEarly depth rest) := by
  simp [closesEarly_of_more depth c more, notOpening, notClosing]

/-- With an open parenthesis in front, a balanced text never closes it. -/
theorem Balanced.closesEarly_append {cs : List Char} (balanced : Balanced cs) (depth : Nat)
    {rest : List Char} (more : rest ≠ []) :
    closesEarly (depth + 1) (cs ++ rest) = closesEarly (depth + 1) rest := by
  induction balanced generalizing depth rest with
  | nil => rfl
  | @char c cs notOpening notClosing _ ih =>
    rw [List.cons_append, closesEarly_char _ notOpening notClosing (by simp [more]), ih depth more]
    simp
  | @group inside after _ _ ih ih' =>
    -- One level deeper inside the group, and back on the level of before behind it.
    rw [List.cons_append, List.append_assoc, List.cons_append, closesEarly_opening _ (by simp),
      ih (depth + 1) (by simp), closesEarly_closing _ (by simp [more]), ih' depth more]
    simp

/-- The first parenthesis of a balanced text is closed in the text. -/
theorem Balanced.closesEarly_of_more {cs : List Char} (balanced : Balanced cs)
    (nonempty : cs ≠ []) {rest : List Char} (more : rest ≠ []) :
    closesEarly 0 (cs ++ rest) = true := by
  cases balanced with
  | nil => exact absurd rfl nonempty
  | char notOpening notClosing _ =>
    -- Nothing is open behind a first character that is no parenthesis.
    rw [List.cons_append, closesEarly_char _ notOpening notClosing (by simp [more])]
    simp
  | group inside _ =>
    -- The count comes back to zero where the group ends.
    rw [List.cons_append, List.append_assoc, List.cons_append, closesEarly_opening _ (by simp),
      inside.closesEarly_append 0 (by simp), closesEarly_closing _ (by simp [more])]
    simp

theorem Balanced.isEnclosed_group {cs : List Char} (balanced : Balanced cs) :
    isEnclosed ('(' :: (cs ++ [')'])) = true := by
  have inside : closesEarly 1 (cs ++ [')']) = false :=
    balanced.closesEarly_append 0 (by simp)
  have closed : ('(' :: (cs ++ [')'])).getLast? = some ')' := by
    rw [← List.cons_append, List.getLast?_concat]
  simp [isEnclosed, closed, closesEarly_opening, inside]

theorem Balanced.isEnclosed_append {cs : List Char} (balanced : Balanced cs) (nonempty : cs ≠ [])
    {rest : List Char} (more : rest ≠ []) : isEnclosed (cs ++ rest) = false := by
  simp [isEnclosed, balanced.closesEarly_of_more nonempty more]

/-! ### Cores -/

theorem stripParens_of_not_isEnclosed {cs : List Char} (bare : isEnclosed cs = false) :
    stripParens cs = cs := by
  rw [stripParens, bare]
  rfl

theorem core_cons_blank {c : Char} (blank : isBlank c = true) (cs : List Char) :
    core (c :: cs) = core cs := by
  rw [core, core, trim_cons_blank blank]

theorem core_append_blank {c : Char} (blank : isBlank c = true) (cs : List Char) :
    core (cs ++ [c]) = core cs := by
  rw [core, core, trim_append_blank blank]

/-- Parentheses around a whole text are removed, and the text inside is trimmed anew. -/
theorem core_group {cs : List Char} (balanced : Balanced cs) :
    core ('(' :: (cs ++ [')'])) = core cs := by
  have trimmed : trim ('(' :: (cs ++ [')'])) = '(' :: (cs ++ [')']) := by
    apply trim_eq_self
    · intro c first
      cases first
      decide
    · intro c last
      rw [← List.cons_append, List.getLast?_concat] at last
      cases last
      decide
  -- What is inside has the same core, however many pairs are left in it.
  rw [core, trimmed, stripParens, if_pos balanced.isEnclosed_group, core]
  simp [inner]

/-- A text is its own core if there is no white space at its ends and nothing encloses it. -/
theorem core_eq_self {cs : List Char} (trimmed : trim cs = cs) (bare : isEnclosed cs = false) :
    core cs = cs := by
  rw [core, trimmed, stripParens_of_not_isEnclosed bare]

/-- What is removed with a pair of enclosing parentheses. -/
theorem exists_of_isEnclosed {cs : List Char} (enclosed : isEnclosed cs = true) :
    ∃ inside, cs = '(' :: (inside ++ [')']) ∧ inner cs = trim inside := by
  have long := two_le_length_of_isEnclosed enclosed
  simp only [isEnclosed, Bool.and_eq_true, beq_iff_eq] at enclosed
  obtain ⟨⟨opening, closing⟩, _⟩ := enclosed
  obtain ⟨rest, rfl⟩ := List.head?_eq_some_iff.mp opening
  obtain ⟨front, split⟩ := List.getLast?_eq_some_iff.mp closing
  cases front with
  -- The opening parenthesis is not the closing one, so there are two characters to remove.
  | nil => simp [List.cons.inj split] at long
  | cons c inside =>
    obtain ⟨rfl, rfl⟩ := List.cons.inj split
    exact ⟨inside, rfl, by simp [inner]⟩

theorem mem_of_mem_trim {cs : List Char} {c : Char} (member : c ∈ trim cs) : c ∈ cs :=
  (List.dropWhile_suffix isBlank).mem ((List.rdropWhile_prefix isBlank (trimLeft cs)).mem member)

/-- A core has no characters of its own. -/
theorem mem_of_mem_core {cs : List Char} {c : Char} (member : c ∈ core cs) : c ∈ cs := by
  have strip : ∀ ds : List Char, c ∈ stripParens ds → c ∈ ds := by
    intro ds
    fun_induction stripParens ds with
    | case1 ds enclosed ih =>
      intro within
      obtain ⟨inside, split, trimmed⟩ := exists_of_isEnclosed enclosed
      have found := mem_of_mem_trim (trimmed ▸ ih within)
      simp [split, found]
    | case2 => exact id
  exact mem_of_mem_trim (strip _ member)

/-! ### Suffixes -/

/-- In front of a suffix white space is only trimmed from the left. -/
theorem trim_append_suffix {tail : List Char} {first last : Char}
    (starts : tail.head? = some first) (ends : tail.getLast? = some last)
    (solid : isBlank first = false) (solid' : isBlank last = false) (cs : List Char) :
    trim (cs ++ tail) = trimLeft cs ++ tail := by
  have left : trimLeft (cs ++ tail) = trimLeft cs ++ tail := by
    obtain ⟨rest, rfl⟩ := List.head?_eq_some_iff.mp starts
    by_cases inside : trimLeft cs = []
    · -- All of the text in front goes, and the suffix stops the trimming.
      simp only [trimLeft] at inside ⊢
      simp [List.dropWhile_append, inside, solid]
    · exact trimLeft_append inside _
  rw [trim, left, trimRight_append solid' _ ends]

/-- Behind a suffix there is nothing to remove, so only white space in front of the text goes. -/
theorem core_append_suffix {tail : List Char} {first last : Char}
    (starts : tail.head? = some first) (ends : tail.getLast? = some last)
    (solid : isBlank first = false) (solid' : isBlank last = false) (notClosing : last ≠ ')')
    (cs : List Char) : core (cs ++ tail) = trimLeft cs ++ tail := by
  have bare : isEnclosed (trimLeft cs ++ tail) = false := by
    simp [isEnclosed, List.getLast?_append, ends, notClosing]
  rw [core, trim_append_suffix starts ends solid solid', stripParens_of_not_isEnclosed bare]

theorem core_append_arraySuffix (cs : List Char) :
    core (cs ++ arraySuffix) = trimLeft cs ++ arraySuffix :=
  core_append_suffix rfl rfl (by decide) (by decide) (by decide) cs

theorem core_append_mapSuffix (cs : List Char) :
    core (cs ++ mapSuffix) = trimLeft cs ++ mapSuffix :=
  core_append_suffix rfl rfl (by decide) (by decide) (by decide) cs

theorem hasSuffix_append (suffix cs : List Char) : hasSuffix suffix (cs ++ suffix) = true :=
  List.isSuffixOf_iff_suffix.mpr (List.suffix_append cs suffix)

/-- A text with a suffix is a shorter text and the suffix. -/
theorem exists_of_hasSuffix {suffix cs : List Char} (found : hasSuffix suffix cs = true) :
    ∃ body, cs = body ++ suffix := by
  obtain ⟨body, same⟩ := List.isSuffixOf_iff_suffix.mp found
  exact ⟨body, same.symm⟩

theorem beforeSuffix_append (cs : List Char) (first last : Char) :
    beforeSuffix (cs ++ [first, last]) = cs := by
  simp [beforeSuffix]

theorem peelArrays_append (cs : List Char) :
    peelArrays (cs ++ arraySuffix) =
      ((peelArrays (trimRight cs)).1, (peelArrays (trimRight cs)).2 + 1) := by
  have body : beforeSuffix (cs ++ arraySuffix) = cs := beforeSuffix_append cs '[' ']'
  rw [peelArrays, dif_pos (hasSuffix_append arraySuffix cs), body]

theorem peelArrays_of_not_hasSuffix {cs : List Char} (bare : hasSuffix arraySuffix cs = false) :
    peelArrays cs = (cs, 0) := by
  rw [peelArrays, dif_neg (by simp [bare])]

/-- One more array suffix adds a dimension to an array, and makes an array of all else. -/
theorem parseChars_append_arraySuffix (cs : List Char) :
    parseChars (cs ++ arraySuffix) =
      .array (String.ofList (trimLeft cs ++ arraySuffix)) ((peelArrays (trim cs)).2 + 1)
        (parseChars (peelArrays (trim cs)).1) := by
  rw [parseChars_eq, core_append_arraySuffix, if_pos (hasSuffix_append _ _), peelArrays_append]
  rfl

theorem parseChars_append_mapSuffix (cs : List Char) :
    parseChars (cs ++ mapSuffix) =
      .map (String.ofList (trimLeft cs ++ mapSuffix)) (parseChars cs) := by
  have noArray : hasSuffix arraySuffix (trimLeft cs ++ mapSuffix) = false := by
    by_contra found
    obtain ⟨body, same⟩ := exists_of_hasSuffix (Bool.not_eq_false _ ▸ found)
    simpa [arraySuffix, mapSuffix] using congrArg List.getLast? same
  have body : beforeSuffix (trimLeft cs ++ mapSuffix) = trimLeft cs :=
    beforeSuffix_append _ '{' '}'
  have inside : parseChars (trimLeft cs) = parseChars cs := by
    apply parseChars_congr
    have again : trimLeft (trimLeft cs) = trimLeft cs := List.dropWhile_idempotent isBlank cs
    rw [core, core, trim, trim, again]
  rw [parseChars_eq, core_append_mapSuffix, noArray, if_pos (hasSuffix_append _ _), body, inside]
  rfl

/-- What an array text is read as, if white space is all there is around it. -/
theorem parseChars_of_hasSuffix {cs : List Char} (array : hasSuffix arraySuffix (trim cs) = true) :
    parseChars cs =
      .array (String.ofList (trim cs)) (peelArrays (trim cs)).2
        (parseChars (peelArrays (trim cs)).1) := by
  obtain ⟨body, same⟩ := exists_of_hasSuffix array
  have bare : isEnclosed (trim cs) = false := by
    simp [same, isEnclosed, arraySuffix]
  have whole : core cs = trim cs := by rw [core, stripParens_of_not_isEnclosed bare]
  rw [parseChars_eq, whole, if_pos array]

/-- A text without white space and without the characters that expressions are built with. Dots
are left in, as they stand in names. -/
def IsPlain (cs : List Char) : Prop :=
  ∀ c ∈ cs, isBlank c = false ∧ c ∉ ['|', '(', ')', '[', ']', '{', '}']

instance (cs : List Char) : Decidable (IsPlain cs) := List.decidableBAll _ cs

theorem IsPlain.not_mem {cs : List Char} (plain : IsPlain cs) {c : Char}
    (special : c ∈ ['|', '(', ')', '[', ']', '{', '}']) : c ∉ cs :=
  fun member => (plain c member).2 special

theorem IsPlain.balanced {cs : List Char} (plain : IsPlain cs) : Balanced cs := by
  apply Balanced.of_plain
  intro c member
  have apart := (plain c member).2
  simp only [List.mem_cons, not_or] at apart
  exact ⟨apart.2.1, apart.2.2.1⟩

theorem IsPlain.core_eq {cs : List Char} (plain : IsPlain cs) : core cs = cs := by
  have opening : cs.head? ≠ some '(' := fun head =>
    plain.not_mem (by simp) (List.mem_of_head? head)
  apply core_eq_self
  · apply trim_eq_self
    · exact fun c head => (plain c (List.mem_of_head? head)).1
    · exact fun c last => (plain c (List.mem_of_getLast? last)).1
  · simp [isEnclosed, opening]

theorem IsPlain.hasSuffix_eq_false {cs : List Char} (plain : IsPlain cs) (c : Char) {d : Char}
    (special : d ∈ ['|', '(', ')', '[', ']', '{', '}']) : hasSuffix [c, d] cs = false := by
  by_contra found
  obtain ⟨body, rfl⟩ := exists_of_hasSuffix (Bool.not_eq_false _ ▸ found)
  exact plain.not_mem special (by simp)

/-- Without any of these characters a text is a name as it stands. -/
theorem IsPlain.parseChars_eq_ofName {cs : List Char} (plain : IsPlain cs) :
    parseChars cs = ofName cs := by
  have noArray : hasSuffix arraySuffix cs = false := plain.hasSuffix_eq_false '[' (by simp)
  have noMap : hasSuffix mapSuffix cs = false := plain.hasSuffix_eq_false '{' (by simp)
  have noBar : hasInside '|' cs = false := by simp [hasInside, plain.not_mem]
  rw [parseChars_eq, plain.core_eq, if_neg (by simp [noArray]), if_neg (by simp [noMap]),
    if_neg (by simp [noBar])]

/-- Suffixes add no names. -/
theorem referencedNames_append_arraySuffix (cs : List Char) :
    (parseChars (cs ++ arraySuffix)).referencedNames = (parseChars cs).referencedNames := by
  rw [parseChars_append_arraySuffix, referencedNames]
  cases array : hasSuffix arraySuffix (trim cs) with
  | true => rw [parseChars_of_hasSuffix array, referencedNames]
  | false =>
    rw [peelArrays_of_not_hasSuffix array, parseChars_trim]

theorem referencedNames_append_mapSuffix (cs : List Char) :
    (parseChars (cs ++ mapSuffix)).referencedNames = (parseChars cs).referencedNames := by
  rw [parseChars_append_mapSuffix, referencedNames]

end TypeExpr

end RamlTypes
