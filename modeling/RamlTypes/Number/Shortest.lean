import RamlTypes.Number.Double

/-!
# The shortest decimal of a double-precision number

The numbers that round to a given one form an interval around it, whose ends belong to it exactly
when the mantissa is even. A number is written with the fewest decimal digits for which some
decimal lies in the interval, and among those decimals with the nearest one.
-/

namespace RamlTypes

namespace Double

/-- The `k` with `10 ^ (k - 1) ≤ num / den < 10 ^ k`. -/
def magnitude (num den : Nat) : Int :=
  if den ≤ num then digitCount (num / den) else 1 - digitCount ((den - 1) / num)

/-- A number with the interval of the numbers that round to it, all three in units of
`unit / scale`. -/
structure Neighbourhood where
  lower : Nat
  centre : Nat
  upper : Nat
  closed : Bool
  unit : Nat
  scale : Nat

/-- The interval reaches half way to the neighbours. Below a power of two the neighbour is only
half as far away. -/
def neighbourhood (mantissa : Nat) (exponent : Int) : Neighbourhood where
  lower := 4 * mantissa - if 2 * mantissa = mantissaBound ∧ leastExponent < exponent then 1 else 2
  centre := 4 * mantissa
  upper := 4 * mantissa + 2
  closed := mantissa % 2 = 0
  unit := Nat.pow 2 (exponent - 2).toNat
  scale := Nat.pow 2 (2 - exponent).toNat

/-- The multiple of `10 ^ exponent` that lies in the interval, the nearer one if two do, and of
two equally near ones the even one. -/
def Neighbourhood.onGrid (n : Neighbourhood) (exponent : Int) : Option Nat :=
  let unit := n.unit * Nat.pow 10 (-exponent).toNat
  let scale := n.scale * Nat.pow 10 exponent.toNat
  let inside (c : Nat) : Bool :=
    if n.closed then n.lower * unit ≤ c * scale && c * scale ≤ n.upper * unit
    else n.lower * unit < c * scale && c * scale < n.upper * unit
  let below := n.centre * unit / scale
  if inside below && inside (below + 1) then some (roundDiv (n.centre * unit) scale)
  else if inside below then some below
  else if inside (below + 1) then some (below + 1)
  else none

/-- The shortest decimal `c * 10 ^ exponent` of a positive number; seventeen digits suffice. -/
def shortest (mantissa : Nat) (exponent : Int) : Nat × Int :=
  let n := neighbourhood mantissa exponent
  let top := magnitude (n.centre * n.unit) n.scale
  let tryDigits (count : Nat) : Option (Nat × Int) :=
    (n.onGrid (top - count)).map fun c => (c, top - count)
  ((List.range' 1 17).findSome? tryDigits).getD (0, 0)

end Double

/-- How decimals are laid out: the power of ten of the first digit for which all digits are
written around a point, and how many digits the exponent has otherwise. -/
structure DecimalLayout where
  leastPositional : Int
  pastPositional : Int
  exponentWidth : Nat

namespace DecimalLayout

def zeros (n : Nat) : List Char := List.replicate n '0'

/-- The number `0.digits * 10 ^ point` with all its digits, at least one on each side of the
point. -/
def positional (digits : List Char) (point : Int) : List Char :=
  if point ≤ 0 then '0' :: '.' :: zeros (-point).toNat ++ digits
  else if point.toNat < digits.length then
    digits.take point.toNat ++ '.' :: digits.drop point.toNat
  else digits ++ zeros (point.toNat - digits.length) ++ ['.', '0']

/-- The number `0.digits * 10 ^ point` with one digit before the point and a signed exponent. -/
def scientific (width : Nat) (digits : List Char) (point : Int) : List Char :=
  let exponent := Nat.toDigits 10 (point - 1).natAbs
  let fraction := if digits.length ≤ 1 then [] else '.' :: digits.drop 1
  digits.take 1 ++ fraction ++ 'e' :: (if point ≤ 0 then '-' else '+') ::
    zeros (width - exponent.length) ++ exponent

def render (layout : DecimalLayout) (digits : List Char) (point : Int) : List Char :=
  if layout.leastPositional ≤ point - 1 ∧ point - 1 < layout.pastPositional then
    positional digits point
  else scientific layout.exponentWidth digits point

/-- Documents write numbers from `10 ^ -4` to below `10 ^ 16` positionally. -/
def document : DecimalLayout := ⟨-4, 16, 2⟩

end DecimalLayout

namespace Double

/-- The text of `mantissa * 2 ^ exponent`, without its sign. -/
def magnitudeText (mantissa : Nat) (exponent : Int) : List Char :=
  if mantissa = 0 then ['0', '.', '0']
  else
    let (c, power) := shortest mantissa exponent
    let digits := Nat.toDigits 10 c
    let significant := (digits.reverse.dropWhile (· == '0')).reverse
    DecimalLayout.document.render significant (digits.length + power)

def text : Double → String
  | .nan => "nan"
  | .infinite negative => if negative then "-inf" else "inf"
  | .finite negative mantissa exponent =>
      String.ofList ((if negative then ['-'] else []) ++ magnitudeText mantissa exponent)

end Double

end RamlTypes
