import RamlTypes.Document.Value
import RamlTypes.Json.SyntaxError
import RamlTypes.Text.Hex

/-!
# Tokens of JSON text

A token knows the offset that it starts at. What begins no token, a string that does not end
properly and an integer with too many digits are tokens too and end the list: whether they matter
depends on what the grammar expects there.
-/

namespace RamlTypes.Json

inductive Token where
  | beginList
  | endList
  | beginMap
  | endMap
  | colon
  | comma
  | string (value : String)
  | scalar (value : Scalar)
  | badString (error : SyntaxError)
  | longInteger (digits : Nat)
  | unknown
deriving DecidableEq, Repr

def isBlank (c : Char) : Bool := c == ' ' || c == '\t' || c == '\n' || c == '\r'

def isDigit (c : Char) : Bool := '0' ≤ c && c ≤ '9'

/-- The number that four hexadecimal digits at the start of a text stand for. -/
def hexQuad? : List Char → Option Nat
  | a :: b :: c :: d :: _ => do
      let a ← Text.hexValue? a
      let b ← Text.hexValue? b
      let c ← Text.hexValue? c
      let d ← Text.hexValue? d
      return ((a * 16 + b) * 16 + c) * 16 + d
  | _ => none

def isHighSurrogate (code : Nat) : Bool := 0xD800 ≤ code && code ≤ 0xDBFF

def isLowSurrogate (code : Nat) : Bool := 0xDC00 ≤ code && code ≤ 0xDFFF

/-- The character of a code point; half of a surrogate pair alone stands for U+FFFD. -/
def charOf (code : Nat) : Char :=
  if isHighSurrogate code || isLowSurrogate code then '\ufffd' else Char.ofNat code

/-- The character of an escape with four digits and how many characters it takes, `cs` being the
text behind its `u`. The digits must not end the text. A high surrogate and an escape with a low
one behind it stand for one character. -/
def readUnicodeEscape (offset : Nat) (cs : List Char) : Except SyntaxError (Char × Nat) :=
  if (cs.drop 4).isEmpty then .error ⟨.badUnicodeEscape, offset⟩
  else match hexQuad? cs with
    | none => .error ⟨.badUnicodeEscape, offset⟩
    | some code =>
        let behind := cs.drop 4
        if isHighSurrogate code && !(behind.drop 6).isEmpty && ['\\', 'u'].isPrefixOf behind then
          match hexQuad? (behind.drop 2) with
          | none => .error ⟨.badUnicodeEscape, offset + 6⟩
          | some low =>
              if isLowSurrogate low then
                .ok (Char.ofNat (0x10000 + (code - 0xD800) * 0x400 + (low - 0xDC00)), 10)
              else .ok (charOf code, 4)
        else .ok (charOf code, 4)

/-- The characters that stand for others behind a backslash. -/
def simpleEscapes : List (Char × Char) :=
  [('"', '"'), ('\\', '\\'), ('/', '/'), ('b', '\x08'), ('f', '\x0c'), ('n', '\n'), ('r', '\r'),
    ('t', '\t')]

/-- Reads a string behind its opening quote, which is at `start`. Gives the characters and how many
characters were read; `read` holds the characters before the one at `offset` in reverse. -/
def readString (start offset : Nat) (read : List Char) (cs : List Char) :
    Except SyntaxError (List Char × Nat) :=
  match cs with
  | [] => .error ⟨.unterminatedString, start⟩
  | '"' :: _ => .ok (read.reverse, offset + 1 - start)
  | ['\\'] => .error ⟨.unterminatedString, start⟩
  | '\\' :: 'u' :: rest =>
      match readUnicodeEscape (offset + 1) rest with
      | .error error => .error error
      | .ok (c, taken) => readString start (offset + 2 + taken) (c :: read) (rest.drop taken)
  | '\\' :: escape :: rest =>
      match simpleEscapes.lookup escape with
      | none => .error ⟨.badEscape, offset⟩
      | some c => readString start (offset + 2) (c :: read) rest
  | c :: rest =>
      if c.toNat < 0x20 then .error ⟨.controlCharacter, offset⟩
      else readString start (offset + 1) (c :: read) rest
termination_by cs.length
decreasing_by all_goals (simp; try omega)

def natOfDigits (digits : List Char) : Nat :=
  digits.foldl (fun n c => 10 * n + (c.toNat - 0x30)) 0

/-- The digits behind a point, if there are any. -/
def fractionOf : List Char → List Char
  | '.' :: rest => rest.takeWhile isDigit
  | _ => []

/-- The sign and the digits of an exponent, if there are any digits, and how many characters they
take. -/
def exponentOf : List Char → Option (Int × Nat)
  | mark :: rest =>
      if mark = 'e' ∨ mark = 'E' then
        let sign := rest.takeWhile fun c => c == '+' || c == '-'
        let digits := (rest.drop sign.length).takeWhile isDigit
        if sign.length ≤ 1 ∧ digits ≠ [] then
          let value : Int := natOfDigits digits
          some (if sign = ['-'] then -value else value, 1 + sign.length + digits.length)
        else none
      else none
  | [] => none

/-- The integer part of a number: zero, or digits that do not start with zero. -/
def integerOf : List Char → List Char
  | '0' :: _ => ['0']
  | cs => cs.takeWhile isDigit

/-- The token of an integer with the given digits. -/
def integerToken (negative : Bool) (digits : List Char) : Token :=
  if maxIntegerDigits < digits.length then .longInteger digits.length
  else
    let value : Int := natOfDigits digits
    .scalar (.int (if negative then -value else value))

/-- The number at the start of a text and how many characters it takes. A point or an exponent
makes it a floating-point number; either counts only with digits behind it. -/
def readNumber (cs : List Char) : Option (Token × Nat) :=
  let negative := cs.head? = some '-'
  let signed := if negative then 1 else 0
  let integer := integerOf (cs.drop signed)
  if integer = [] then none
  else
    let behindInteger := cs.drop (signed + integer.length)
    let fraction := fractionOf behindInteger
    let point := if fraction = [] then 0 else 1
    let mantissaLength := signed + integer.length + point + fraction.length
    let exponent := exponentOf (cs.drop mantissaLength)
    if fraction = [] ∧ exponent = none then
      some (integerToken negative integer, mantissaLength)
    else
      let (power, exponentLength) := exponent.getD (0, 0)
      let decimal : Decimal :=
        ⟨negative, natOfDigits (integer ++ fraction), power - fraction.length⟩
      some (.scalar (.float (.ofDecimal decimal)), mantissaLength + exponentLength)

/-- The words that stand for scalars. -/
def words : List (String × Scalar) :=
  [("null", .null), ("true", .bool true), ("false", .bool false), ("NaN", .float .nan),
    ("Infinity", .float (.infinite false)), ("-Infinity", .float (.infinite true))]

def readWord (cs : List Char) : Option (Token × Nat) :=
  (words.find? fun word => word.1.toList.isPrefixOf cs).map fun word =>
    (.scalar word.2, word.1.length)

/-- The token that starts with `c` at `offset`, and how many characters of `rest` belong to it. -/
def readToken (offset : Nat) (c : Char) (rest : List Char) : Token × Nat :=
  match c with
  | '[' => (.beginList, 0)
  | ']' => (.endList, 0)
  | '{' => (.beginMap, 0)
  | '}' => (.endMap, 0)
  | ':' => (.colon, 0)
  | ',' => (.comma, 0)
  | '"' =>
      match readString offset (offset + 1) [] rest with
      | .ok (cs, taken) => (.string (String.ofList cs), taken - 1)
      | .error error => (.badString error, 0)
  | _ =>
      match readWord (c :: rest) <|> readNumber (c :: rest) with
      | some (token, taken) => (token, taken - 1)
      | none => (.unknown, 0)

def Token.endsText : Token → Bool
  | badString _ => true
  | longInteger _ => true
  | unknown => true
  | _ => false

/-- The tokens of a text that starts at `offset`, with their own offsets. -/
def tokens (offset : Nat) : List Char → List (Nat × Token)
  | [] => []
  | c :: rest =>
      if isBlank c then tokens (offset + 1) rest
      else
        let (token, taken) := readToken offset c rest
        if token.endsText then [(offset, token)]
        else (offset, token) :: tokens (offset + 1 + taken) (rest.drop taken)
termination_by cs => cs.length
decreasing_by all_goals (simp; try omega)

end RamlTypes.Json
