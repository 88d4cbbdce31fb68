import Mathlib.Data.List.DropRight
import RamlTypes.Proofs.JsonGrammar

/-!
# Written numbers

Integers and finite double-precision numbers are written as JSON numbers. For the latter this is
where their shortest decimal starts with a digit other than zero: no decimal that is near enough to
a positive number is zero.
-/
namespace RamlTypes

namespace Json

variable {digits : List Char} {c : Char} {point : Int}

/-! ### Digits -/

theorem isDigits_toDigits (n : Nat) : IsDigits (Nat.toDigits 10 n) :=
  ⟨Nat.toDigits_ne_nil, fun _ member => Nat.isDigit_of_mem_toDigits (by decide) (by decide) member⟩

/-- The first digit of a positive number is not zero. -/
theorem head?_toDigits {n : Nat} (positive : 0 < n) : (Nat.toDigits 10 n).head? ≠ some '0' := by
  induction n using Nat.strong_induction_on with
  | _ n ih =>
    rw [Nat.toDigits_eq_if (by decide)]
    split
    next small =>
      have other : n.digitChar ≠ '0' := fun zero => by
        rw [Nat.digitChar_eq_zero] at zero
        omega
      simpa using other
    next large =>
      rw [List.head?_append_of_ne_nil _ Nat.toDigits_ne_nil]
      exact ih (n / 10) (by omega) (by omega)

theorem isWhole_toDigits (n : Nat) : IsWhole (Nat.toDigits 10 n) := by
  refine ⟨isDigits_toDigits n, fun zero => ?_⟩
  rcases Nat.eq_zero_or_pos n with rfl | positive
  · exact Nat.toDigits_zero 10
  · exact absurd zero (head?_toDigits positive)

theorem IsWhole.isMagnitude (whole : IsWhole digits) : IsMagnitude digits :=
  ⟨digits, [], [], whole, .inl rfl, .inl rfl, by simp⟩

theorem isNumber_int (n : Int) : IsNumber (toString n).toList := by
  cases n with
  | ofNat n =>
    have same : toString (Int.ofNat n) = toString n := rfl
    rw [same, Nat.toString_eq_ofList_toDigits, String.toList_ofList]
    exact .inl (isWhole_toDigits n).isMagnitude
  | negSucc n =>
    have same : toString (Int.negSucc n) = "-" ++ toString (n + 1) := rfl
    rw [same, Nat.toString_eq_ofList_toDigits, String.toList_append, String.toList_ofList]
    exact .inr ⟨_, (isWhole_toDigits (n + 1)).isMagnitude, by simp⟩

/-! ### Layouts -/

theorem isDigit_of_mem_zeros {n : Nat} (zero : c ∈ DecimalLayout.zeros n) : c.isDigit = true := by
  rw [List.eq_of_mem_replicate zero]
  rfl

theorem isDigits_zeros_append (n : Nat) (good : IsDigits digits) :
    IsDigits (DecimalLayout.zeros n ++ digits) :=
  ⟨List.append_ne_nil_of_right_ne_nil _ good.1,
    List.forall_mem_append.mpr ⟨fun _ zero => isDigit_of_mem_zeros zero, good.2⟩⟩

variable (leading : c ≠ '0') (good : IsDigits (c :: digits))

include leading good

theorem isWhole_of_leading {behind : List Char} (digit : ∀ d ∈ behind, d.isDigit = true) :
    IsWhole (c :: behind) := by
  refine ⟨⟨List.cons_ne_nil _ _, List.forall_mem_cons.mpr ⟨good.2 c List.mem_cons_self, digit⟩⟩, ?_⟩
  intro zero
  exact absurd (Option.some.inj zero) leading

theorem isMagnitude_positional (point : Int) :
    IsMagnitude (DecimalLayout.positional (c :: digits) point) := by
  have behind : ∀ d ∈ digits, d.isDigit = true := fun d member =>
    good.2 d (List.mem_cons_of_mem _ member)
  rw [DecimalLayout.positional]
  -- The point stands before all digits, between two of them or behind them.
  split_ifs with before between
  · have fraction := isDigits_zeros_append (-point).toNat good
    exact ⟨['0'], _, [], isWhole_toDigits 0, .inr ⟨_, fraction, rfl⟩, .inl rfl, by simp⟩
  · obtain ⟨n, same⟩ : ∃ n, point.toNat = n + 1 := ⟨point.toNat - 1, by omega⟩
    rw [same, List.length_cons, Nat.add_lt_add_iff_right] at between
    rw [same, List.take_succ_cons, List.drop_succ_cons]
    have whole : IsWhole (c :: digits.take n) :=
      isWhole_of_leading leading good fun d member => behind d (List.mem_of_mem_take member)
    have fraction : IsDigits (digits.drop n) :=
      ⟨by simpa using between, fun d member => behind d (List.mem_of_mem_drop member)⟩
    exact ⟨_, _, [], whole, .inr ⟨_, fraction, rfl⟩, .inl rfl, by simp⟩
  · have whole :
        IsWhole (c :: (digits ++ DecimalLayout.zeros (point.toNat - (digits.length + 1)))) :=
      isWhole_of_leading leading good
        (List.forall_mem_append.mpr ⟨behind, fun d zero => isDigit_of_mem_zeros zero⟩)
    exact ⟨_, ['.', '0'], [], whole, .inr ⟨['0'], isDigits_toDigits 0, rfl⟩, .inl rfl, by simp⟩

theorem isMagnitude_scientific (width : Nat) (point : Int) :
    IsMagnitude (DecimalLayout.scientific width (c :: digits) point) := by
  have first : IsWhole [c] := isWhole_of_leading leading good (by simp)
  have fraction : IsFraction (if (c :: digits).length ≤ 1 then [] else '.' :: digits) := by
    split
    next => exact .inl rfl
    next several =>
      have some : digits ≠ [] := by
        rintro rfl
        exact several (Nat.le_refl 1)
      exact .inr ⟨digits, ⟨some, fun d member => good.2 d (List.mem_cons_of_mem _ member)⟩, rfl⟩
  have exponent := isDigits_zeros_append (width - (Nat.toDigits 10 (point - 1).natAbs).length)
    (isDigits_toDigits (point - 1).natAbs)
  refine ⟨[c], _, _, first, fraction, .inr ⟨'e', by simp, [if point ≤ 0 then '-' else '+'], ?_, _,
    exponent, rfl⟩, by simp [DecimalLayout.scientific]⟩
  split <;> simp

theorem isMagnitude_render (layout : DecimalLayout) (point : Int) :
    IsMagnitude (layout.render (c :: digits) point) := by
  rw [DecimalLayout.render]
  split
  · exact isMagnitude_positional leading good point
  · exact isMagnitude_scientific leading good _ point

end Json

namespace Double

open Json

def isFinite : Double → Bool
  | finite .. => true
  | _ => false

/-- Without the zeros at the end, the digits of a positive number start with the same digit. -/
theorem isMagnitude_significant {n : Nat} (positive : 0 < n) (point : Int) :
    IsMagnitude (DecimalLayout.document.render
      ((Nat.toDigits 10 n).reverse.dropWhile (· == '0')).reverse point) := by
  have digits := isDigits_toDigits n
  have leading := head?_toDigits positive
  generalize Nat.toDigits 10 n = all at digits leading
  change IsMagnitude (DecimalLayout.document.render (all.rdropWhile (· == '0')) point)
  have shorter : all.rdropWhile (· == '0') <+: all := List.rdropWhile_prefix _ all
  cases kept : all.rdropWhile (· == '0') with
  | nil =>
    -- Then all digits would be zeros, but the first one is not.
    obtain ⟨c, behind, rfl⟩ := List.exists_cons_of_ne_nil digits.1
    have zero := List.rdropWhile_eq_nil_iff.mp kept c List.mem_cons_self
    rw [eq_of_beq zero] at leading
    exact absurd rfl leading
  | cons c behind =>
    rw [kept] at shorter
    have first : all.head? = some c := by
      obtain ⟨dropped, rfl⟩ := shorter
      rfl
    have other : c ≠ '0' := fun zero => leading (zero ▸ first)
    exact isMagnitude_render other
      ⟨List.cons_ne_nil _ _, fun d member => digits.2 d (shorter.subset member)⟩ _ point

theorem le_roundDiv (num den : Nat) : num / den ≤ roundDiv num den := by
  simp only [roundDiv]
  split <;> omega

/-- A multiple of a power of ten that lies in an interval above zero is positive. -/
theorem Neighbourhood.onGrid_pos {n : Neighbourhood} {exponent : Int} {c : Nat}
    (lower : 0 < n.lower) (unit : 0 < n.unit) (found : n.onGrid exponent = some c) : 0 < c := by
  unfold onGrid at found
  extract_lets units scale inside below at found
  have reached : 0 < n.lower * units :=
    Nat.mul_pos lower (Nat.mul_pos unit (Nat.pow_pos (by decide)))
  have nearer : below ≤ roundDiv (n.centre * units) scale := le_roundDiv _ _
  clear_value units scale below
  have inside_pos (c : Nat) (within : inside c = true) : 0 < c := by
    by_contra zero
    obtain rfl : c = 0 := Nat.eq_zero_of_not_pos zero
    simp only [inside, Nat.zero_mul] at within
    split at within <;> simp only [Bool.and_eq_true, decide_eq_true_eq] at within <;> omega
  split_ifs at found with both single next <;> cases found
  · rw [Bool.and_eq_true] at both
    exact Nat.lt_of_lt_of_le (inside_pos _ both.1) nearer
  · exact inside_pos _ single
  · exact Nat.succ_pos _

/-- The decimal that a positive number is written as is positive, if one is found. -/
theorem shortest_pos {mantissa : Nat} (positive : 0 < mantissa) (exponent : Int) :
    0 < (shortest mantissa exponent).1 ∨ shortest mantissa exponent = (0, 0) := by
  simp only [shortest]
  cases found : (List.range' 1 17).findSome? _ with
  | none => exact .inr rfl
  | some decimal =>
    obtain ⟨count, _, tried⟩ := List.exists_of_findSome?_eq_some found
    obtain ⟨c, onGrid, rfl⟩ := Option.map_eq_some_iff.mp tried
    have lower : 0 < (neighbourhood mantissa exponent).lower := by
      simp only [neighbourhood]
      split <;> omega
    exact .inl (Neighbourhood.onGrid_pos lower (Nat.pow_pos (by decide)) onGrid)

theorem isMagnitude_magnitudeText (mantissa : Nat) (exponent : Int) :
    IsMagnitude (magnitudeText mantissa exponent) := by
  have zero : IsMagnitude ['0', '.', '0'] :=
    ⟨['0'], ['.', '0'], [], isWhole_toDigits 0, .inr ⟨['0'], isDigits_toDigits 0, rfl⟩, .inl rfl,
      rfl⟩
  rw [magnitudeText]
  split
  next => exact zero
  next other =>
    rcases shortest_pos (Nat.pos_of_ne_zero other) exponent with positive | none
    · exact isMagnitude_significant positive _
    · rw [none]
      exact zero

theorem isNumber_text {x : Double} (finite : x.isFinite = true) : IsNumber x.text.toList := by
  cases x with
  | nan | infinite => cases finite
  | finite negative mantissa exponent =>
    have magnitude := isMagnitude_magnitudeText mantissa exponent
    cases negative with
    | true => exact .inr ⟨_, magnitude, by simp [text]⟩
    | false => exact .inl (by simpa [text] using magnitude)

end Double

end RamlTypes
