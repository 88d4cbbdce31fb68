import Mathlib
import RamlTypes.Proofs.Enclosures

/-!
# Written expressions

The grammar of type expressions is given by a relation between texts and the names in them. White
space and suffixes can be taken away from the ends of an expression, whichever of its parts they
belong to. Each bar stands in a number of parentheses, and none in fewer than the expression.
-/
namespace RamlTypes

namespace TypeExpr

open Text

/-! ### The grammar -/

/-- A name without white space, dots and the characters that type expressions are built with. -/
def IsTypeName (cs : List Char) : Prop := cs ≠ [] ∧ IsPlain cs ∧ '.' ∉ cs

instance (cs : List Char) : Decidable (IsTypeName cs) := inferInstanceAs (Decidable (_ ∧ _ ∧ _))

/-- The texts that are type expressions, each with its names from left to right. -/
inductive Written : List Char → List String → Prop where
  | name {cs : List Char} (plain : IsTypeName cs) : Written cs [String.ofList cs]
  | array {cs : List Char} {names : List String} (element : Written cs names) :
      Written (cs ++ arraySuffix) names
  | map {cs : List Char} {names : List String} (value : Written cs names) :
      Written (cs ++ mapSuffix) names
  | group {cs : List Char} {names : List String} (inside : Written cs names) :
      Written ('(' :: (cs ++ [')'])) names
  | union {left right : List Char} {names others : List String} (first : Written left names)
      (second : Written right others) : Written (left ++ '|' :: right) (names ++ others)
  | blankBefore {c : Char} {cs : List Char} {names : List String} (blank : isBlank c = true)
      (expr : Written cs names) : Written (c :: cs) names
  | blankBehind {c : Char} {cs : List Char} {names : List String} (blank : isBlank c = true)
      (expr : Written cs names) : Written (cs ++ [c]) names

variable {cs : List Char} {names : List String}

theorem isBlank_ne {c d : Char} (blank : isBlank c = true) (solid : isBlank d = false) : c ≠ d := by
  rintro rfl
  simp [blank] at solid

theorem Written.nonempty (written : Written cs names) : cs ≠ [] := by
  cases written with
  | name plain => exact plain.1
  | array | map | group | union | blankBefore | blankBehind => simp [arraySuffix, mapSuffix]

theorem Written.balanced (written : Written cs names) : Balanced cs := by
  induction written with
  | name plain => exact plain.2.1.balanced
  | array _ ih => exact ih.append (.of_plain (by simp [arraySuffix]))
  | map _ ih => exact ih.append (.of_plain (by simp [mapSuffix]))
  | group _ ih => exact .group ih .nil
  | union _ _ ih ih' => exact ih.append (.char (by decide) (by decide) ih')
  | blankBefore blank _ ih =>
    exact .char (isBlank_ne blank (by decide)) (isBlank_ne blank (by decide)) ih
  | @blankBehind c _ _ blank _ ih =>
    refine ih.append (.of_plain fun d member => ?_)
    cases List.mem_singleton.mp member
    exact ⟨isBlank_ne blank (by decide), isBlank_ne blank (by decide)⟩

/-- What may stand behind an expression without being part of a name or a group: a suffix or a white
space. -/
def IsTail (tail : List Char) : Prop :=
  tail = arraySuffix ∨ tail = mapSuffix ∨ ∃ c, isBlank c = true ∧ tail = [c]

theorem IsTail.getLast? {tail : List Char} (behind : IsTail tail) :
    ∃ c, tail.getLast? = some c ∧ (c = ']' ∨ c = '}' ∨ isBlank c = true) := by
  rcases behind with rfl | rfl | ⟨c, blank, rfl⟩
  · exact ⟨']', rfl, .inl rfl⟩
  · exact ⟨'}', rfl, .inr (.inl rfl)⟩
  · exact ⟨c, rfl, .inr (.inr blank)⟩

theorem IsTail.nonempty {tail : List Char} (behind : IsTail tail) : tail ≠ [] := by
  rcases behind with rfl | rfl | ⟨c, _, rfl⟩ <;> simp [arraySuffix, mapSuffix]

theorem IsTail.noBar {tail : List Char} (behind : IsTail tail) : '|' ∉ tail := by
  rcases behind with rfl | rfl | ⟨c, blank, rfl⟩
  · decide
  · decide
  · simpa using (isBlank_ne blank (by decide)).symm

/-- The last character of a text tells which tail it has. -/
theorem IsTail.unique {front back tail tail' : List Char} (behind : IsTail tail)
    (behind' : IsTail tail') (same : front ++ tail = back ++ tail') : front = back := by
  have last : tail.getLast? = tail'.getLast? := by
    obtain ⟨c, ends, _⟩ := behind.getLast?
    obtain ⟨d, ends', _⟩ := behind'.getLast?
    simpa [List.getLast?_append, ends, ends'] using congrArg List.getLast? same
  have equal : tail = tail' := by
    have bracket : isBlank ']' = false := by decide
    have brace : isBlank '}' = false := by decide
    rcases behind with rfl | rfl | ⟨c, blank, rfl⟩ <;>
      rcases behind' with rfl | rfl | ⟨d, blank', rfl⟩ <;>
        grind [arraySuffix, mapSuffix]
  exact List.append_cancel_right (equal ▸ same)

theorem IsTypeName.not_mem_tail {tail : List Char} {c : Char} (plain : IsTypeName cs)
    (behind : IsTail tail) (last : tail.getLast? = some c) : c ∉ cs := by
  intro member
  obtain ⟨d, last', ends⟩ := behind.getLast?
  cases last.symm.trans last'
  obtain ⟨solid, apart⟩ := plain.2.1 c member
  rcases ends with rfl | rfl | blank
  · simp at apart
  · simp at apart
  · simp [solid] at blank

/-- An expression in front of a tail is an expression without the tail, whichever of its parts the
tail belongs to. -/
theorem Written.of_append_tail {tail body : List Char} (written : Written cs names)
    (behind : IsTail tail) (split : cs = body ++ tail) : Written body names := by
  induction written generalizing body with
  | name plain =>
    obtain ⟨c, last, _⟩ := behind.getLast?
    have member : c ∈ body ++ tail := List.mem_append_right _ (List.mem_of_getLast? last)
    exact absurd (split ▸ member) (plain.not_mem_tail behind last)
  | array element _ => exact IsTail.unique (.inl rfl) behind split ▸ element
  | map value _ => exact IsTail.unique (.inr (.inl rfl)) behind split ▸ value
  | blankBehind blank expr _ =>
    exact IsTail.unique (.inr (.inr ⟨_, blank, rfl⟩)) behind split ▸ expr
  | @group cs _ _ _ =>
    -- A closing parenthesis is no tail.
    obtain ⟨c, last, ends⟩ := behind.getLast?
    have same : ('(' :: (cs ++ [')'])).getLast? = (body ++ tail).getLast? := by rw [split]
    rw [← List.cons_append, List.getLast?_concat, List.getLast?_append, last] at same
    cases same
    rcases ends with wrong | wrong | wrong <;> exact absurd wrong (by decide)
  | @union left right _ _ first _ _ ih =>
    rcases List.append_eq_append_iff.mp split with ⟨middle, front, back⟩ | ⟨middle, _, back⟩
    · cases middle with
      | nil =>
        rw [List.nil_append] at back
        exact absurd (by simp [← back]) behind.noBar
      | cons bar middle =>
        obtain ⟨rfl, split'⟩ := List.cons.inj back
        rw [front]
        exact .union first (ih split')
    · exact absurd (by simp [back]) behind.noBar
  | @blankBefore c cs _ blank expr ih =>
    cases body with
    | nil =>
      -- The tail would start with a white space and not end with it.
      rcases behind with rfl | rfl | ⟨d, _, rfl⟩
      · exact absurd (List.cons.inj split).1 (isBlank_ne blank (by decide))
      · exact absurd (List.cons.inj split).1 (isBlank_ne blank (by decide))
      · exact absurd (List.cons.inj split).2 expr.nonempty
    | cons d body =>
      obtain ⟨rfl, split'⟩ := List.cons.inj split
      exact .blankBefore blank (ih split')

theorem Written.of_cons_blank {c : Char} {rest : List Char} (written : Written cs names)
    (blank : isBlank c = true) (split : cs = c :: rest) : Written rest names := by
  induction written generalizing rest with
  | name plain =>
    have solid := (plain.2.1 c (by simp [split])).1
    simp [solid] at blank
  | @array cs _ element ih =>
    obtain ⟨d, front, rfl⟩ := List.exists_cons_of_ne_nil element.nonempty
    obtain ⟨rfl, rfl⟩ := List.cons.inj split
    exact .array (ih rfl)
  | @map cs _ value ih =>
    obtain ⟨d, front, rfl⟩ := List.exists_cons_of_ne_nil value.nonempty
    obtain ⟨rfl, rfl⟩ := List.cons.inj split
    exact .map (ih rfl)
  | group =>
    exact absurd (List.cons.inj split).1.symm (isBlank_ne blank (by decide))
  | @union left right _ _ first second ih _ =>
    obtain ⟨d, front, rfl⟩ := List.exists_cons_of_ne_nil first.nonempty
    obtain ⟨rfl, rfl⟩ := List.cons.inj split
    exact .union (ih rfl) second
  | blankBefore _ expr _ => exact (List.cons.inj split).2 ▸ expr
  | @blankBehind d cs _ blank' expr ih =>
    obtain ⟨e, front, rfl⟩ := List.exists_cons_of_ne_nil expr.nonempty
    obtain ⟨rfl, rfl⟩ := List.cons.inj split
    exact .blankBehind blank' (ih rfl)

/-! ### Depths of bars -/

/-- How many parentheses a character opens; a closing one takes one away. -/
def opened (c : Char) : Int := if c = '(' then 1 else if c = ')' then -1 else 0

/-- How many more parentheses a text opens than it closes. -/
def excess (cs : List Char) : Int := (cs.map opened).sum

/-- In how many parentheses each bar of a text stands, `depth` of them being open in front. -/
def barDepths (depth : Int) : List Char → List Int
  | [] => []
  | c :: cs => if c = '|' then depth :: barDepths depth cs else barDepths (depth + opened c) cs

/-- All bars of a text stand in the same number of parentheses. -/
def BarsLevel (cs : List Char) : Prop :=
  ∀ left ∈ barDepths 0 cs, ∀ right ∈ barDepths 0 cs, left = right

instance (cs : List Char) : Decidable (BarsLevel cs) :=
  List.decidableBAll (fun left => ∀ right ∈ barDepths 0 cs, left = right) _

@[simp] theorem excess_nil : excess [] = 0 := rfl

@[simp] theorem excess_cons (c : Char) (cs : List Char) : excess (c :: cs) = opened c + excess cs :=
  rfl

@[simp] theorem excess_append (left right : List Char) :
    excess (left ++ right) = excess left + excess right := by
  simp [excess]

theorem opened_of_isBlank {c : Char} (blank : isBlank c = true) : opened c = 0 := by
  simp [opened, isBlank_ne blank (d := '(') (by decide), isBlank_ne blank (d := ')') (by decide)]

theorem IsTail.excess_eq_zero {tail : List Char} (behind : IsTail tail) : excess tail = 0 := by
  rcases behind with rfl | rfl | ⟨c, blank, rfl⟩
  · rfl
  · rfl
  · simp [opened_of_isBlank blank]

theorem barDepths_append (depth : Int) (left right : List Char) :
    barDepths depth (left ++ right) =
      barDepths depth left ++ barDepths (depth + excess left) right := by
  induction left generalizing depth with
  | nil => simp [barDepths]
  | cons c left ih =>
    by_cases bar : c = '|'
    · subst bar
      simp [barDepths, ih, opened]
    · simp [barDepths, bar, ih, Int.add_assoc]

theorem barDepths_add (depth more : Int) (cs : List Char) :
    barDepths (depth + more) cs = (barDepths depth cs).map (· + more) := by
  induction cs generalizing depth with
  | nil => rfl
  | cons c cs ih =>
    by_cases bar : c = '|'
    · simp [barDepths, bar, ih]
    · simp [barDepths, bar, ← ih, Int.add_right_comm]

theorem barDepths_eq_nil_iff (depth : Int) (cs : List Char) :
    barDepths depth cs = [] ↔ '|' ∉ cs := by
  induction cs generalizing depth with
  | nil => simp [barDepths]
  | cons c cs ih =>
    by_cases bar : c = '|'
    · simp [barDepths, bar]
    · simp [barDepths, bar, ih, Ne.symm bar]

theorem Balanced.excess_eq_zero (balanced : Balanced cs) : excess cs = 0 := by
  induction balanced with
  | nil => rfl
  | char notOpening notClosing _ ih => simp [opened, notOpening, notClosing, ih]
  | group _ _ ih ih' => simp [opened, ih, ih']

/-- No bar of a balanced text stands in fewer parentheses than the text itself. -/
theorem Balanced.le_barDepths (balanced : Balanced cs) {depth found : Int}
    (member : found ∈ barDepths depth cs) : depth ≤ found := by
  induction balanced generalizing depth with
  | nil => simp [barDepths] at member
  | @char c cs notOpening notClosing _ ih =>
    by_cases bar : c = '|'
    · simp only [barDepths, if_pos bar, List.mem_cons] at member
      rcases member with rfl | later
      · exact Int.le_refl _
      · exact ih later
    · simp only [barDepths, if_neg bar, opened, notOpening, notClosing, if_false,
        Int.add_zero] at member
      exact ih member
  | @group inside after balanced _ ih ih' =>
    have inner : barDepths depth ('(' :: (inside ++ ')' :: after)) =
        barDepths (depth + 1) inside ++ barDepths depth after := by
      simp [barDepths, barDepths_append, opened, balanced.excess_eq_zero]
    rw [inner, List.mem_append] at member
    rcases member with within | behind
    · have := ih within
      omega
    · exact ih' behind

theorem barsLevel_append_tail {tail : List Char} (behind : IsTail tail) (cs : List Char) :
    BarsLevel (cs ++ tail) ↔ BarsLevel cs := by
  have none := (barDepths_eq_nil_iff (0 + excess cs) tail).mpr behind.noBar
  rw [BarsLevel, BarsLevel, barDepths_append, none, List.append_nil]

theorem barDepths_cons_blank {c : Char} (blank : isBlank c = true) (depth : Int)
    (cs : List Char) : barDepths depth (c :: cs) = barDepths depth cs := by
  have bar : c ≠ '|' := isBlank_ne blank (by decide)
  simp [barDepths, bar, opened_of_isBlank blank]

theorem barsLevel_group (cs : List Char) : BarsLevel ('(' :: (cs ++ [')'])) ↔ BarsLevel cs := by
  have shifted : barDepths 0 ('(' :: (cs ++ [')'])) = (barDepths 0 cs).map (· + 1) := by
    rw [← barDepths_add]
    simp [barDepths, barDepths_append, opened]
  simp [BarsLevel, shifted]

end TypeExpr

end RamlTypes
