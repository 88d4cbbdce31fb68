import RamlTypes.Proofs.WrittenExpressions

/-!
# Names of an expression

Reading finds the names of an expression, except where a bar stands deeper in parentheses than
another one: a text is cut at all of its bars, so a group with a bar inside falls apart when there
is a bar outside. Each of its pieces then keeps a parenthesis, which no name has.
-/
namespace RamlTypes

namespace TypeExpr

open Text

variable {cs : List Char} {names : List String}

/-! ### Reading the pieces -/

/-- The names of the pieces between the bars of a text, each piece read for itself. -/
def pieceNames (cs : List Char) : List String :=
  (splitAt '|' cs).flatMap fun piece => (parseChars piece).referencedNames

/-- A union of one member stands for that member, which has the same names. -/
theorem referencedNames_ofMembers (raw : String) (members : List TypeExpr) :
    (ofMembers raw members).referencedNames = members.flatMap referencedNames := by
  match members with
  | [] => rfl
  | [member] => simp [ofMembers]
  | first :: second :: rest => rw [ofMembers, referencedNames, referencedNamesOfAll_eq]; simp

theorem referencedNames_of_isBlankText (blank : isBlankText cs = true) :
    (parseChars cs).referencedNames = [] := by
  have gone : trimLeft cs = [] := by simpa [trimLeft, isBlankText] using blank
  have nothing : core cs = core [] := by
    rw [core, trim, gone]
    rfl
  have empty : parseChars [] = .named "" "" "" := by cbv
  rw [parseChars_congr nothing, empty]
  rfl

theorem referencedNames_append_tail {tail : List Char} (behind : IsTail tail) (cs : List Char) :
    (parseChars (cs ++ tail)).referencedNames = (parseChars cs).referencedNames := by
  rcases behind with rfl | rfl | ⟨c, blank, rfl⟩
  · exact referencedNames_append_arraySuffix cs
  · exact referencedNames_append_mapSuffix cs
  · rw [parseChars_congr (core_append_blank blank cs)]

theorem pieceNames_of_noBar (noBar : '|' ∉ cs) :
    pieceNames cs = (parseChars cs).referencedNames := by
  simp [pieceNames, splitAt_of_not_mem noBar]

theorem pieceNames_append_bar (left right : List Char) :
    pieceNames (left ++ '|' :: right) = pieceNames left ++ pieceNames right := by
  simp [pieceNames, splitAt_append_separator]

theorem pieceNames_append_tail {tail : List Char} (behind : IsTail tail) (cs : List Char) :
    pieceNames (cs ++ tail) = pieceNames cs := by
  obtain ⟨front, last, split, split'⟩ := splitAt_append behind.noBar cs
  simp [pieceNames, split, split', referencedNames_append_tail behind]

theorem pieceNames_cons_blank {c : Char} (blank : isBlank c = true) (cs : List Char) :
    pieceNames (c :: cs) = pieceNames cs := by
  obtain ⟨first, rest, split⟩ := exists_splitAt '|' cs
  have split' := splitAt_cons_other (isBlank_ne blank (d := '|') (by decide)) split
  simp [pieceNames, split, split', parseChars_congr (core_cons_blank blank first)]

private theorem flatMap_filter_of_nil {α β : Type} {keep : α → Bool} {f : α → List β}
    {xs : List α} (none : ∀ x ∈ xs, keep x = false → f x = []) :
    (xs.filter keep).flatMap f = xs.flatMap f := by
  induction xs with
  | nil => rfl
  | cons x xs ih =>
    have later := ih fun y member => none y (by simp [member])
    cases kept : keep x with
    | true => simp [kept, later]
    | false => simp [kept, later, none x (by simp) kept]

/-- A text that is cut at its bars has the names of its pieces; blank pieces have none. -/
theorem referencedNames_eq_pieceNames (whole : core cs = cs)
    (noArray : hasSuffix arraySuffix cs = false) (noMap : hasSuffix mapSuffix cs = false)
    (bar : hasInside '|' cs = true) : (parseChars cs).referencedNames = pieceNames cs := by
  rw [parseChars_eq, whole, if_neg (by simp [noArray]), if_neg (by simp [noMap]), if_pos bar,
    referencedNames_ofMembers, List.flatMap_map, unionPieces, pieceNames]
  apply flatMap_filter_of_nil
  intro piece _ dropped
  exact referencedNames_of_isBlankText (by simpa using dropped)

/-! ### Bars on one level -/

theorem IsTypeName.noBar (plain : IsTypeName cs) : '|' ∉ cs := plain.2.1.not_mem (by simp)

/-- A name is read as itself. -/
theorem IsTypeName.parseChars_eq (plain : IsTypeName cs) :
    parseChars cs = .named (String.ofList cs) (String.ofList cs) "" := by
  have noDot : hasInside '.' cs = false := by simp [hasInside, plain.2.2]
  rw [plain.2.1.parseChars_eq_ofName, ofName, if_neg (by simp [noDot])]

theorem IsTypeName.ne_empty (plain : IsTypeName cs) : String.ofList cs ≠ "" := by
  simpa [String.ofList_eq_empty_iff] using plain.1

theorem IsTypeName.referencedNames (plain : IsTypeName cs) :
    (parseChars cs).referencedNames = [String.ofList cs] := by
  rw [plain.parseChars_eq, TypeExpr.referencedNames, if_neg plain.ne_empty]

/-- Without bars there is nothing to cut, and all names are found. -/
theorem Written.referencedNames_of_noBar (written : Written cs names) (noBar : '|' ∉ cs) :
    (parseChars cs).referencedNames = names := by
  induction written with
  | name plain => exact plain.referencedNames
  | array _ ih => rw [referencedNames_append_tail (.inl rfl), ih (by simp_all)]
  | map _ ih => rw [referencedNames_append_tail (.inr (.inl rfl)), ih (by simp_all)]
  | group inside ih => rw [parseChars_congr (core_group inside.balanced), ih (by simp_all)]
  | union => simp at noBar
  | blankBefore blank _ ih => rw [parseChars_congr (core_cons_blank blank _), ih (by simp_all)]
  | blankBehind blank _ ih => rw [parseChars_congr (core_append_blank blank _), ih (by simp_all)]

/-- With all bars outside of parentheses, the pieces are the members. -/
theorem Written.pieceNames_eq (written : Written cs names)
    (outside : ∀ depth ∈ barDepths 0 cs, depth = 0) : pieceNames cs = names := by
  induction written with
  | name plain => rw [pieceNames_of_noBar plain.noBar, plain.referencedNames]
  | array _ ih =>
    rw [pieceNames_append_tail (.inl rfl)]
    exact ih fun depth member => outside depth (by simp [barDepths_append, member])
  | map _ ih =>
    rw [pieceNames_append_tail (.inr (.inl rfl))]
    exact ih fun depth member => outside depth (by simp [barDepths_append, member])
  | @group cs _ inside _ =>
    -- A bar in the group would stand in its parentheses.
    have noBar : '|' ∉ cs := by
      rw [← barDepths_eq_nil_iff 1, List.eq_nil_iff_forall_not_mem]
      intro depth member
      have deep := inside.balanced.le_barDepths member
      have flat := outside depth (by simp [barDepths, barDepths_append, opened, member])
      omega
    rw [pieceNames_of_noBar (by simp [noBar]), parseChars_congr (core_group inside.balanced),
      inside.referencedNames_of_noBar noBar]
  | @union left right _ _ first _ ih ih' =>
    have split : barDepths 0 (left ++ '|' :: right) =
        barDepths 0 left ++ 0 :: barDepths 0 right := by
      simp [barDepths_append, barDepths, first.balanced.excess_eq_zero]
    rw [split] at outside
    rw [pieceNames_append_bar, ih fun depth member => outside depth (by simp [member]),
      ih' fun depth member => outside depth (by simp [member])]
  | blankBefore blank _ ih =>
    rw [pieceNames_cons_blank blank]
    exact ih (by rwa [barDepths_cons_blank blank] at outside)
  | blankBehind blank _ ih =>
    rw [pieceNames_append_tail (.inr (.inr ⟨_, blank, rfl⟩))]
    exact ih fun depth member => outside depth (by simp [barDepths_append, member])

/-! ### Bars on several levels -/

theorem excess_eq_zero_of_isBlank (blank : ∀ c ∈ cs, isBlank c = true) : excess cs = 0 := by
  induction cs with
  | nil => rfl
  | cons c cs ih =>
    have rest := ih fun d member => blank d (by simp [member])
    rw [excess_cons, opened_of_isBlank (blank c (by simp)), rest]
    rfl

theorem excess_trim (cs : List Char) : excess (trim cs) = excess cs := by
  have left : excess (trimLeft cs) = excess cs := by
    have blank : excess (cs.takeWhile isBlank) = 0 :=
      excess_eq_zero_of_isBlank fun c member => List.mem_takeWhile_imp member
    have split := congrArg excess (List.takeWhile_append_dropWhile (p := isBlank) (l := cs))
    rw [excess_append, blank, Int.zero_add] at split
    exact split
  have right : excess (trim cs) = excess (trimLeft cs) := by
    have blank : excess ((trimLeft cs).rtakeWhile isBlank) = 0 :=
      excess_eq_zero_of_isBlank fun c member => List.mem_rtakeWhile_imp member
    have split := congrArg excess
      (List.rdropWhile_append_rtakeWhile (p := isBlank) (l := trimLeft cs))
    rw [excess_append, blank, Int.add_zero] at split
    exact split
  rw [right, left]

/-- Enclosing parentheses are removed in pairs. -/
theorem excess_core (cs : List Char) : excess (core cs) = excess cs := by
  have strip : ∀ ds : List Char, excess (stripParens ds) = excess ds := by
    intro ds
    fun_induction stripParens ds with
    | case1 ds enclosed ih =>
      obtain ⟨inside, split, trimmed⟩ := exists_of_isEnclosed enclosed
      rw [ih, trimmed, excess_trim, split]
      simp only [excess_cons, excess_append, excess_nil]
      simp [opened]
    | case2 => rfl
  rw [core, strip, excess_trim]

theorem excess_eq_sum_splitAt (cs : List Char) :
    excess cs = ((splitAt '|' cs).map excess).sum := by
  induction cs with
  | nil => rfl
  | cons c cs ih =>
    by_cases bar : c = '|'
    · simp [splitAt, bar, opened, ih]
    · obtain ⟨first, rest, split⟩ := exists_splitAt '|' cs
      simp [splitAt_cons_other bar split, ih, split, Int.add_assoc]

theorem hasSuffix_eq_false_of_noTail {suffix : List Char} (tail : IsTail suffix)
    (noTail : ∀ body tail, IsTail tail → cs ≠ body ++ tail) : hasSuffix suffix cs = false := by
  by_contra found
  obtain ⟨body, split⟩ := exists_of_hasSuffix (Bool.not_eq_false _ ▸ found)
  exact noTail body suffix tail split

/-- What the names of an expression open and do not close. -/
def nameExcess (expr : TypeExpr) : Int :=
  (expr.referencedNames.map fun name => excess name.toList).sum

theorem nameExcess_ofName (noDot : '.' ∉ cs) : (ofName cs).nameExcess = excess cs := by
  have noInside : hasInside '.' cs = false := by simp [hasInside, noDot]
  rw [nameExcess, ofName, if_neg (by simp [noInside]), referencedNames]
  split
  next empty => simp [String.ofList_eq_empty_iff.mp empty]
  · simp

theorem sum_excess_pieceNames
    (each : ∀ piece ∈ splitAt '|' cs, (parseChars piece).nameExcess = excess piece) :
    ((pieceNames cs).map fun name => excess name.toList).sum = excess cs := by
  rw [excess_eq_sum_splitAt, pieceNames, List.map_flatMap, List.flatMap_def, List.sum_flatten,
    List.map_map]
  exact congrArg List.sum (List.map_congr_left each)

/-- Reading loses no parentheses but in pairs: what a text opens and does not close stays in its
names. Dotted names are left out, as only their last segment counts. -/
theorem nameExcess_parseChars (noDot : '.' ∉ cs) : (parseChars cs).nameExcess = excess cs := by
  induction size : cs.length using Nat.strong_induction_on generalizing cs with
  | _ bound ih =>
    -- On the length of the text; only its core matters.
    have short := length_core_le cs
    have noDot' : '.' ∉ core cs := fun member => noDot (mem_of_mem_core member)
    rw [← excess_core cs, ← parseChars_congr (core_core cs)]
    have whole := core_core cs
    generalize core cs = text at short noDot' whole
    by_cases back : ∃ body tail, IsTail tail ∧ text = body ++ tail
    · obtain ⟨body, tail, behind, rfl⟩ := back
      have positive := List.length_pos_iff.mpr behind.nonempty
      simp only [List.length_append] at short
      have shorter := ih body.length (by omega) (by simp_all) rfl
      rw [nameExcess, referencedNames_append_tail behind, excess_append, behind.excess_eq_zero,
        Int.add_zero]
      exact shorter
    have noTail : ∀ body tail, IsTail tail → text ≠ body ++ tail :=
      fun body tail behind split => back ⟨body, tail, behind, split⟩
    have array := hasSuffix_eq_false_of_noTail (.inl rfl) noTail
    have map := hasSuffix_eq_false_of_noTail (.inr (.inl rfl)) noTail
    cases bar : hasInside '|' text with
    | true =>
      rw [nameExcess, referencedNames_eq_pieceNames whole array map bar]
      apply sum_excess_pieceNames
      intro piece member
      have shorter := length_lt_of_mem_splitAt (mem_of_hasInside bar) member
      exact ih piece.length (by omega) (fun dot => noDot' (mem_of_mem_splitAt member dot)) rfl
    | false =>
      rw [parseChars_eq, whole, if_neg (by simp [array]), if_neg (by simp [map]),
        if_neg (by simp [bar])]
      exact nameExcess_ofName noDot'

theorem barDepths_eq_of_pieces {first : List Char} {rest : List (List Char)}
    (split : splitAt '|' cs = first :: rest) (even : ∀ piece ∈ rest, excess piece = 0)
    {depth found : Int} (member : found ∈ barDepths depth cs) : found = depth + excess first := by
  induction cs generalizing depth first rest with
  | nil => simp [barDepths] at member
  | cons c cs ih =>
    obtain ⟨first', rest', split'⟩ := exists_splitAt '|' cs
    by_cases bar : c = '|'
    · subst bar
      simp only [splitAt, if_pos] at split
      cases split
      simp only [barDepths, if_pos, List.mem_cons] at member
      rcases member with rfl | later
      · simp
      · have next := ih split' (fun piece inside => even piece (by simp [split', inside])) later
        have zero := even first' (by simp [split'])
        simp [next, zero]
    · rw [splitAt_cons_other bar split'] at split
      cases split
      simp only [barDepths, if_neg bar] at member
      rw [ih split' even member, excess_cons, Int.add_assoc]

/-! ### The names of an expression -/

theorem Written.noDot (written : Written cs names) : '.' ∉ cs := by
  induction written with
  | name plain => exact plain.2.2
  | array _ ih => simpa [arraySuffix] using ih
  | map _ ih => simpa [mapSuffix] using ih
  | group _ ih => simpa using ih
  | union _ _ ih ih' => simpa using ⟨ih, ih'⟩
  | blankBefore blank _ ih => simpa [ih] using (isBlank_ne blank (by decide)).symm
  | blankBehind blank _ ih => simpa [ih] using (isBlank_ne blank (by decide)).symm

theorem Written.noBar_first (written : Written cs names) : cs.head? ≠ some '|' := by
  induction written with
  | name plain => exact fun head => plain.noBar (List.mem_of_head? head)
  | array element ih | map element ih | blankBehind _ element ih =>
    obtain ⟨c, rest, rfl⟩ := List.exists_cons_of_ne_nil element.nonempty
    exact ih
  | group => simp
  | union first _ ih _ =>
    obtain ⟨c, rest, rfl⟩ := List.exists_cons_of_ne_nil first.nonempty
    exact ih
  | blankBefore blank _ _ => simpa using isBlank_ne blank (by decide)

theorem Written.excess_name (written : Written cs names) :
    ∀ name ∈ names, excess name.toList = 0 := by
  induction written with
  | @name cs plain =>
    have even := (Written.name plain).balanced.excess_eq_zero
    simpa using even
  | array _ ih | map _ ih | group _ ih | blankBefore _ _ ih | blankBehind _ _ ih => exact ih
  | union _ _ ih ih' =>
    intro name member
    rcases List.mem_append.mp member with found | found
    · exact ih name found
    · exact ih' name found

/-- A text with nothing around it that reading would remove. -/
structure IsBare (cs : List Char) : Prop where
  first : ∀ c rest, cs = c :: rest → isBlank c = false
  last : ∀ body tail, IsTail tail → cs ≠ body ++ tail

theorem IsBare.trim_eq (bare : IsBare cs) : trim cs = cs := by
  apply trim_eq_self
  · intro c head
    obtain ⟨rest, split⟩ := List.head?_eq_some_iff.mp head
    exact bare.first c rest split
  · intro c last
    obtain ⟨body, split⟩ := List.getLast?_eq_some_iff.mp last
    by_contra blank
    exact bare.last body [c] (.inr (.inr ⟨c, Bool.not_eq_false _ ▸ blank, rfl⟩)) split

/-- A union is cut at its bars. -/
theorem Written.referencedNames_union {left right : List Char}
    (first : Written left names) (bare : IsBare (left ++ '|' :: right)) :
    (parseChars (left ++ '|' :: right)).referencedNames = pieceNames (left ++ '|' :: right) := by
  have open_ : isEnclosed (left ++ '|' :: right) = false :=
    first.balanced.isEnclosed_append first.nonempty (by simp)
  have inside : hasInside '|' (left ++ '|' :: right) = true := by
    obtain ⟨c, rest, rfl⟩ := List.exists_cons_of_ne_nil first.nonempty
    simpa [hasInside] using first.noBar_first
  exact referencedNames_eq_pieceNames (core_eq_self bare.trim_eq open_)
    (hasSuffix_eq_false_of_noTail (.inl rfl) bare.last)
    (hasSuffix_eq_false_of_noTail (.inr (.inl rfl)) bare.last) inside

/-- The pieces of a text have the right names exactly when no bar stands in parentheses. -/
theorem Written.pieceNames_union_iff {left right : List Char} {others : List String}
    (first : Written left names) (second : Written right others) :
    pieceNames (left ++ '|' :: right) = names ++ others ↔ BarsLevel (left ++ '|' :: right) := by
  have written := Written.union first second
  constructor
  · intro same
    -- The right names have no parentheses, so each piece closes what it opens.
    have even : ∀ piece ∈ splitAt '|' (left ++ '|' :: right), excess piece = 0 := by
      intro piece member
      rw [← nameExcess_parseChars fun dot => written.noDot (mem_of_mem_splitAt member dot)]
      apply List.sum_eq_zero
      intro found listed
      obtain ⟨name, inside, rfl⟩ := List.mem_map.mp listed
      apply written.excess_name
      rw [← same]
      exact List.mem_flatMap.mpr ⟨piece, member, inside⟩
    obtain ⟨front, rest, split⟩ := exists_splitAt '|' (left ++ '|' :: right)
    rw [split] at even
    have flat : ∀ depth ∈ barDepths 0 (left ++ '|' :: right), depth = 0 := by
      intro depth member
      rw [barDepths_eq_of_pieces split (fun piece inside => even piece (by simp [inside])) member,
        even front (by simp)]
      rfl
    intro depth member depth' member'
    rw [flat depth member, flat depth' member']
  · intro level
    -- The bar of the union itself stands outside of all parentheses.
    have outside : (0 : Int) ∈ barDepths 0 (left ++ '|' :: right) := by
      simp [barDepths_append, barDepths, first.balanced.excess_eq_zero]
    exact written.pieceNames_eq fun depth member => level depth member 0 outside

theorem Written.referencedNames_iff (written : Written cs names) :
    (parseChars cs).referencedNames = names ↔ BarsLevel cs := by
  induction size : cs.length using Nat.strong_induction_on generalizing cs names with
  | _ bound ih =>
    -- On the length of the text: what may stand around an expression goes first.
    by_cases front : ∃ c rest, isBlank c = true ∧ cs = c :: rest
    · obtain ⟨c, rest, blank, rfl⟩ := front
      simp only [List.length_cons] at size
      rw [parseChars_congr (core_cons_blank blank rest), BarsLevel, barDepths_cons_blank blank]
      exact ih rest.length (by omega) (written.of_cons_blank blank rfl) rfl
    by_cases back : ∃ body tail, IsTail tail ∧ cs = body ++ tail
    · obtain ⟨body, tail, behind, rfl⟩ := back
      have positive := List.length_pos_iff.mpr behind.nonempty
      simp only [List.length_append] at size
      rw [referencedNames_append_tail behind, barsLevel_append_tail behind]
      exact ih body.length (by omega) (written.of_append_tail behind rfl) rfl
    cases written with
    | name plain =>
      have none := (barDepths_eq_nil_iff 0 cs).mpr plain.noBar
      exact iff_of_true plain.referencedNames (by simp [BarsLevel, none])
    | @group cs _ inside =>
      simp only [List.length_cons, List.length_append] at size
      rw [parseChars_congr (core_group inside.balanced), barsLevel_group]
      exact ih cs.length (by omega) inside rfl
    | @union left right names others first second =>
      have bare : IsBare (left ++ '|' :: right) := by
        constructor
        · intro c rest split
          by_contra blank
          exact front ⟨c, rest, Bool.not_eq_false _ ▸ blank, split⟩
        · exact fun body tail behind split => back ⟨body, tail, behind, split⟩
      rw [first.referencedNames_union bare]
      exact first.pieceNames_union_iff second
    | array element => exact absurd ⟨_, _, .inl rfl, rfl⟩ back
    | map value => exact absurd ⟨_, _, .inr (.inl rfl), rfl⟩ back
    | blankBefore blank expr => exact absurd ⟨_, _, blank, rfl⟩ front
    | blankBehind blank expr => exact absurd ⟨_, _, .inr (.inr ⟨_, blank, rfl⟩), rfl⟩ back

/-- Reading a type expression finds its names from left to right exactly when all of its bars stand
in the same number of parentheses. -/
theorem referencedNames_parse_iff {text : String} {names : List String}
    (written : Written text.toList names) :
    (parse text).referencedNames = names ↔ BarsLevel text.toList :=
  written.referencedNames_iff

/-- Both bars of a group with a suffix are in its parentheses, so all three names are found. -/
theorem referencedNames_parse_shelf :
    Written "(A | (B)[] | C) {}".toList ["A", "B", "C"] ∧
      (parse "(A | (B)[] | C) {}").referencedNames = ["A", "B", "C"] := by
  have a : Written (['A'] ++ [' ']) ["A"] := .blankBehind (by decide) (.name (by decide))
  have b : Written ['B'] ["B"] := .name (by decide)
  have b' : Written (' ' :: (['(', 'B', ')'] ++ arraySuffix ++ [' '])) ["B"] :=
    .blankBefore (by decide) (.blankBehind (by decide) (.array (.group b)))
  have c : Written [' ', 'C'] ["C"] := .blankBefore (by decide) (.name (by decide))
  have written : Written "(A | (B)[] | C) {}".toList ["A", "B", "C"] :=
    .map (.blankBehind (by decide) (.group (.union a (.union b' c))))
  exact ⟨written, (referencedNames_parse_iff written).mpr (by decide)⟩

/-- A union of a group and a name is cut through the group. -/
theorem referencedNames_parse_cut :
    Written "(A | B) | C".toList ["A", "B", "C"] ∧
      (parse "(A | B) | C").referencedNames = ["(A", "B)", "C"] := by
  have a : Written (['A'] ++ [' ']) ["A"] := .blankBehind (by decide) (.name (by decide))
  have b : Written [' ', 'B'] ["B"] := .blankBefore (by decide) (.name (by decide))
  have c : Written [' ', 'C'] ["C"] := .blankBefore (by decide) (.name (by decide))
  have group : Written ['(', 'A', ' ', '|', ' ', 'B', ')'] ["A", "B"] := .group (.union a b)
  refine ⟨.union (.blankBehind (by decide) group) c, ?_⟩
  cbv

end TypeExpr

end RamlTypes
