/-!
# Double-precision numbers

A number of a document that is not an integer is a binary number with 53 significant bits. It is
kept exactly, as a sign, a mantissa and a power of two, so that reading a decimal and writing one
are integer arithmetic. A decimal stands for the nearest such number, and of two nearest ones for
the one with an even mantissa.
-/

namespace RamlTypes

/-- Not a number, an infinity, or the number `± mantissa * 2 ^ exponent`. -/
inductive Double where
  | nan
  | infinite (negative : Bool)
  | finite (negative : Bool) (mantissa : Nat) (exponent : Int)
deriving DecidableEq, Repr, Inhabited

/-- The decimal number `± significand * 10 ^ exponent`. -/
structure Decimal where
  negative : Bool
  significand : Nat
  exponent : Int
deriving DecidableEq, Repr

/-- How many decimal digits a number is written with; zero is written with one. -/
def digitCount (n : Nat) : Nat := (Nat.toDigits 10 n).length

/-- The integer nearest to `num / den`; of two nearest ones the even one. -/
def roundDiv (num den : Nat) : Nat :=
  let quotient := num / den
  let rest := 2 * (num % den)
  if rest < den ∨ rest = den ∧ quotient % 2 = 0 then quotient else quotient + 1

namespace Double

/-- Mantissas are below this power of two, and from half of it on unless the exponent is least. -/
def mantissaBound : Nat := Nat.pow 2 53

/-- The exponent of the numbers next to zero. -/
def leastExponent : Int := -1074

def greatestExponent : Int := 971

def zero (negative : Bool) : Double := .finite negative 0 leastExponent

/-- Numerator and denominator of `num / den / 2 ^ exponent`. -/
def scaled (num den : Nat) (exponent : Int) : Nat × Nat :=
  if 0 ≤ exponent then (num, den * Nat.pow 2 exponent.toNat)
  else (num * Nat.pow 2 (-exponent).toNat, den)

/-- The exponent for which the mantissa of `num / den` has 53 bits, or the least exponent. -/
def exponentFor (num den : Nat) : Int :=
  let estimate : Int := num.log2 - den.log2 - 52
  let (n, d) := scaled num den estimate
  max (if 2 * (n / d) < mantissaBound then estimate - 1 else estimate) leastExponent

/-- The number nearest to the positive ratio `num / den`. -/
def ofRatio (negative : Bool) (num den : Nat) : Double :=
  let exponent := exponentFor num den
  let (n, d) := scaled num den exponent
  let mantissa := roundDiv n d
  let (mantissa, exponent) :=
    if mantissa = mantissaBound then (mantissaBound / 2, exponent + 1) else (mantissa, exponent)
  if greatestExponent < exponent then .infinite negative
  else .finite negative mantissa exponent

/-- The number nearest to a decimal. Decimals from `10 ^ 310` are infinite and those below
`10 ^ -330` are zero, whatever their digits. -/
def ofDecimal (d : Decimal) : Double :=
  let magnitude : Int := digitCount d.significand + d.exponent
  if d.significand = 0 ∨ magnitude < -330 then zero d.negative
  else if 310 < magnitude then .infinite d.negative
  else if 0 ≤ d.exponent then ofRatio d.negative (d.significand * Nat.pow 10 d.exponent.toNat) 1
  else ofRatio d.negative d.significand (Nat.pow 10 (-d.exponent).toNat)

def isZero : Double → Bool
  | .finite _ 0 _ => true
  | _ => false

def negate : Double → Double
  | .nan => .nan
  | .infinite negative => .infinite !negative
  | .finite negative mantissa exponent => .finite (!negative) mantissa exponent

/-- The integer that a number is equal to, if it is one. -/
def toInt? : Double → Option Int
  | .nan => none
  | .infinite _ => none
  | .finite negative mantissa exponent =>
      let (n, d) := scaled mantissa 1 (-exponent)
      if n % d = 0 then some (if negative then -(n / d : Nat) else (n / d : Nat)) else none

end Double

end RamlTypes
