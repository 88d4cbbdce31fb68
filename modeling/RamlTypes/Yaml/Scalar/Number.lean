import RamlTypes.Document.BadScalar
import RamlTypes.Number.Arithmetic
import RamlTypes.Text.Hex
import RamlTypes.Text.Lower
import RamlTypes.Text.Numeral
import RamlTypes.Text.Search

/-!
# Numbers in YAML

Lines between digits have no meaning. Integers have bases two, eight, ten and sixteen, and both
kinds of numbers may be written in base sixty, with colons between the digits. What has the form of
a number and has no value is reported as such.
-/

namespace RamlTypes.Yaml

def isDigitOrLine (c : Char) : Bool := c.isDigit || c == '_'

/-- A text without the sign in front. -/
def withoutSign : List Char → List Char
  | '+' :: rest => rest
  | '-' :: rest => rest
  | cs => cs

/-- Whether a text is a later digit of base sixty. -/
def isSixtieth : List Char → Bool
  | [c] => c.isDigit
  | [c, d] => '0' ≤ c && c ≤ '5' && d.isDigit
  | _ => false

/-- Whether a text is written as an integer. -/
def isInteger (cs : List Char) : Bool :=
  match withoutSign cs with
  | [] => false
  | '0' :: 'b' :: digits => digits ≠ [] && digits.all fun c => c == '0' || c == '1' || c == '_'
  | '0' :: 'x' :: digits =>
      digits ≠ [] && digits.all fun c => (Text.hexValue? c).isSome || c == '_'
  | '0' :: digits => digits.all fun c => ('0' ≤ c && c ≤ '7') || c == '_'
  | c :: rest =>
      c.isDigit &&
        match Text.splitAt ':' rest with
        | [] => false
        | digits :: sixtieths => digits.all isDigitOrLine && sixtieths.all isSixtieth

/-- Whether a text is empty or an exponent, which has a sign. -/
def isPower : List Char → Bool
  | [] => true
  | mark :: sign :: digits =>
      (mark == 'e' || mark == 'E') && (sign == '+' || sign == '-') && digits ≠ [] &&
        digits.all (·.isDigit)
  | [_] => false

/-- Whether a text is written as a number with a point. There are digits in front of the point, or
else the point comes first. -/
def isPointed (cs : List Char) : Bool :=
  let body := withoutSign cs
  let whole := body.takeWhile (· != '.')
  match body.drop whole.length with
  | [] => false
  | _ :: rest =>
      let fraction := rest.takeWhile isDigitOrLine
      let power := rest.drop fraction.length
      if whole = [] then
        cs.head? = some '.' && fraction.head?.any (·.isDigit) && isPower power
      else
        whole.head?.any (·.isDigit) &&
          match Text.splitAt ':' whole with
          | [] => false
          | [digits] => digits.all isDigitOrLine && isPower power
          | digits :: sixtieths =>
              digits.all isDigitOrLine && sixtieths.all isSixtieth && power = []

/-- Whether a text is written as a floating-point number. -/
def isFloat (cs : List Char) : Bool :=
  isPointed cs || String.ofList (withoutSign cs) ∈ [".inf", ".Inf", ".INF"] ||
    String.ofList cs ∈ [".nan", ".NaN", ".NAN"]

/-- A text without a mark of its base. -/
def withoutBase (base : Nat) (cs : List Char) : List Char :=
  match cs with
  | '0' :: mark :: rest =>
      let marks := match base with
        | 2 => "bB"
        | 8 => "oO"
        | 16 => "xX"
        | _ => ""
      if marks.contains mark then rest else cs
  | _ => cs

/-- The value of a digit, if it is less than the base. -/
def digitValue? (base : Nat) (c : Char) : Option Nat := (Text.hexValue? c).filter (· < base)

/-- The value of the digits of a text, if it has no other characters and at least one. -/
def ofDigits? (base : Nat) (cs : List Char) : Option Nat :=
  if cs = [] then none
  else cs.foldl (fun n c => do return (← n) * base + (← digitValue? base c)) (some 0)

/-- The integer that a text stands for in a base, with white space around it. -/
def integerIn (base : Nat) (cs : List Char) : Except BadScalar Int :=
  let body := Text.asciiNumeral cs
  let digits := withoutBase base (withoutSign body)
  match ofDigits? base digits with
  | none => .error (.integer base (String.ofList cs))
  | some n =>
      if base = 10 ∧ maxIntegerDigits < digits.length then .error (.longInteger digits.length)
      else .ok (if body.head? = some '-' then -(n : Int) else n)

/-- The value of an integer without its sign, which stands in front of all its digits. -/
def readMagnitude (cs : List Char) : Except BadScalar Int :=
  match cs with
  | [] => .error .emptyInteger
  | '0' :: 'b' :: digits => integerIn 2 digits
  | '0' :: 'x' :: digits => integerIn 16 digits
  | ['0'] => .ok 0
  | '0' :: _ => integerIn 8 cs
  | _ =>
      if cs.contains ':' then do
        let digits ← (Text.splitAt ':' cs).mapM (integerIn 10)
        return digits.foldl (fun n digit => 60 * n + digit) 0
      else integerIn 10 cs

/-- The value of an integer. -/
def readInteger (text : String) : Except BadScalar Int :=
  let cs := text.toList.filter (· != '_')
  (readMagnitude (withoutSign cs)).map fun n => if cs.head? = some '-' then -n else n

/-- The digits of an exponent with an optional sign, as an integer. -/
def exponentValue? : List Char → Option Int
  | [] => some 0
  | mark :: rest =>
      if mark = 'e' then
        (ofDigits? 10 (withoutSign rest)).map fun n =>
          if rest.head? = some '-' then -(n : Int) else n
      else none

/-- The decimal that a text stands for, in lower case and without a sign. -/
def decimalOf? (negative : Bool) (cs : List Char) : Option Decimal := do
  let whole := cs.takeWhile (·.isDigit)
  let behind := cs.drop whole.length
  let fraction := if behind.head? = some '.' then behind.tail.takeWhile (·.isDigit) else []
  let power := if behind.head? = some '.' then behind.tail.drop fraction.length else behind
  let significand ← ofDigits? 10 (whole ++ fraction)
  let exponent ← exponentValue? power
  return ⟨negative, significand, exponent - fraction.length⟩

/-- The number that a text in lower case stands for, with white space around it. -/
def readDouble (cs : List Char) : Except BadScalar Double :=
  let body := Text.asciiNumeral cs
  let negative := body.head? = some '-'
  match String.ofList (withoutSign body) with
  | "inf" => .ok (.infinite negative)
  | "infinity" => .ok (.infinite negative)
  | "nan" => .ok .nan
  | _ =>
      match decimalOf? negative (withoutSign body) with
      | some d => .ok (.ofDecimal d)
      | none => .error (.float (String.ofList cs))

/-- The sum of digits in base sixty, of which the first one has the given place value. Every step is
rounded. -/
def sumOfSixties (place : Nat) (sum : Double) : List Double → Except BadScalar Double
  | [] => .ok sum
  | digit :: rest =>
      match Double.ofNat place with
      | .infinite _ => .error .hugePlace
      | value => sumOfSixties (60 * place) (sum.add (digit.mul value)) rest

/-- The value of a floating-point number without its sign, in lower case. -/
def floatMagnitude (cs : List Char) : Except BadScalar Double :=
  if String.ofList cs = ".inf" then .ok (.infinite false)
  else if String.ofList cs = ".nan" then .ok .nan
  else if cs.contains ':' then do
    let digits ← (Text.splitAt ':' cs).mapM readDouble
    sumOfSixties 1 (.zero false) digits.reverse
  else readDouble cs

/-- The value of a floating-point number. -/
def readFloat (text : String) : Except BadScalar Double :=
  let cs := (text.toList.filter (· != '_')).map Text.lowerChar
  if cs = [] then .error .emptyInteger
  else (floatMagnitude (withoutSign cs)).map fun x =>
    if cs.head? = some '-' then x.negate else x

end RamlTypes.Yaml
