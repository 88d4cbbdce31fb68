import RamlTypes.Number.Double

/-!
# Sums and products of double-precision numbers

The exact result is formed as an integer times a power of two and rounded once. A sum or product
that no number is close to is infinite, and one that is undefined is not a number.
-/

namespace RamlTypes.Double

/-- The number nearest to `± mantissa * 2 ^ exponent`. -/
def nearest (negative : Bool) (mantissa : Nat) (exponent : Int) : Double :=
  if mantissa = 0 then zero negative
  else
    let (num, den) := scaled mantissa 1 (-exponent)
    ofRatio negative num den

/-- The nearest number to a natural number. -/
def ofNat (n : Nat) : Double := nearest false n 0

def isNegative : Double → Bool
  | .nan => false
  | .infinite negative => negative
  | .finite negative _ _ => negative

def signed (negative : Bool) (mantissa : Nat) : Int := if negative then -mantissa else mantissa

/-- The rounded sum. The sum of two opposite numbers is the positive zero. -/
def add : Double → Double → Double
  | .nan, _ => .nan
  | _, .nan => .nan
  | .infinite first, .infinite second => if first = second then .infinite first else .nan
  | .infinite negative, .finite .. => .infinite negative
  | .finite .., .infinite negative => .infinite negative
  | .finite first m e, .finite second n f =>
      let least := min e f
      let total := signed first m * Nat.pow 2 (e - least).toNat +
        signed second n * Nat.pow 2 (f - least).toNat
      if total = 0 then zero (first && second) else nearest (total < 0) total.natAbs least

/-- The rounded product. -/
def mul (x y : Double) : Double :=
  let negative := x.isNegative != y.isNegative
  match x, y with
  | .nan, _ => .nan
  | _, .nan => .nan
  | .infinite _, y => if y.isZero then .nan else .infinite negative
  | x, .infinite _ => if x.isZero then .nan else .infinite negative
  | .finite _ m e, .finite _ n f => nearest negative (m * n) (e + f)

end RamlTypes.Double
