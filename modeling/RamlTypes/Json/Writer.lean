import RamlTypes.Document.Value
import RamlTypes.Text.Hex

/-!
# Writing JSON

Values are written over several lines, two blanks deeper for each level. Only printable ASCII is
written as it is; every other character is escaped, in two halves if it needs more than four digits.
Points in time, binary data and sets have no form that they could be written in.
-/

namespace RamlTypes.Json

def unicodeEscape (code : Nat) : List Char := '\\' :: 'u' :: Text.hex 4 code

/-- A character inside a string. -/
def writeChar (c : Char) : List Char :=
  let code := c.toNat
  if c = '"' ∨ c = '\\' then ['\\', c]
  else if c = '\n' then ['\\', 'n']
  else if c = '\r' then ['\\', 'r']
  else if c = '\t' then ['\\', 't']
  else if c = '\x08' then ['\\', 'b']
  else if c = '\x0c' then ['\\', 'f']
  else if 0x20 ≤ code ∧ code < 0x7F then [c]
  else if code < 0x10000 then unicodeEscape code
  else
    unicodeEscape (0xD800 + (code - 0x10000) / 0x400) ++
      unicodeEscape (0xDC00 + (code - 0x10000) % 0x400)

def writeString (s : String) : List Char := '"' :: s.toList.flatMap writeChar ++ ['"']

/-- A scalar that has a form. -/
def writeScalar : Scalar → List Char
  | .null => "null".toList
  | .bool b => (if b then "true" else "false").toList
  | .int n => (toString n).toList
  | .float .nan => "NaN".toList
  | .float (.infinite negative) => (if negative then "-Infinity" else "Infinity").toList
  | .float x => x.text.toList
  | .text s => writeString s
  | .timestamp _ => []
  | .bytes _ => []

/-- A key, as the text that it is itself or would be written as. -/
def writeKey : Scalar → List Char
  | .text s => writeString s
  | key => writeString (String.ofList (writeScalar key))

/-- The start of a line at a depth. -/
def newline (depth : Nat) : List Char := '\n' :: List.replicate (2 * depth) ' '

mutual

def write (depth : Nat) : Value → List Char
  | .scalar s => writeScalar s
  | .list [] => ['[', ']']
  | .list (item :: rest) =>
      '[' :: newline (depth + 1) ++ write (depth + 1) item ++ writeItems (depth + 1) rest ++
        newline depth ++ [']']
  | .map [] => ['{', '}']
  | .map ((key, value) :: rest) =>
      '{' :: newline (depth + 1) ++ writeKey key ++ ':' :: ' ' ::
        write (depth + 1) value ++ writeEntries (depth + 1) rest ++ newline depth ++ ['}']
  | .set _ => []
  | .pair first second =>
      '[' :: newline (depth + 1) ++ write (depth + 1) first ++
        ',' :: newline (depth + 1) ++ write (depth + 1) second ++ newline depth ++ [']']

/-- The items behind the first one. -/
def writeItems (depth : Nat) : List Value → List Char
  | [] => []
  | item :: rest => ',' :: newline depth ++ write depth item ++ writeItems depth rest

/-- The entries behind the first one. -/
def writeEntries (depth : Nat) : List (Scalar × Value) → List Char
  | [] => []
  | (key, value) :: rest =>
      ',' :: newline depth ++ writeKey key ++ ':' :: ' ' :: write depth value ++
        writeEntries depth rest

end

def render (value : Value) : String := String.ofList (write 0 value)

/-- Why a value cannot be written. -/
inductive Unwritable where
  | value (kind : String)
  | key (kind : String)
  | longNumber

def Unwritable.message : Unwritable → String
  | value kind => "Object of type " ++ kind ++ " is not JSON serializable"
  | key kind => "keys must be str, int, float, bool or None, not " ++ kind
  | longNumber => longNumberMessage

/-- The problem of a scalar: that it has no form, or a number that it has too many digits. -/
def scalarProblem? (noForm : String → Unwritable) : Scalar → Option Unwritable
  | .timestamp t => some (noForm (Scalar.timestamp t).kindName)
  | .bytes value => some (noForm (Scalar.bytes value).kindName)
  | s => if s.isPrintable then none else some .longNumber

mutual

/-- The first problem that there is with writing a value, the one of a key before that of its
value. -/
def problem? : Value → Option Unwritable
  | .scalar s => scalarProblem? .value s
  | .list items => problemOf? items
  | .map entries => problemIn? entries
  | .set items => some (.value (Value.set items).kindName)
  | .pair first second => (problem? first).or (problem? second)

def problemOf? : List Value → Option Unwritable
  | [] => none
  | item :: rest => (problem? item).or (problemOf? rest)

def problemIn? : List (Scalar × Value) → Option Unwritable
  | [] => none
  | (key, value) :: rest =>
      ((scalarProblem? .key key).or (problem? value)).or (problemIn? rest)

end

/-- The text of a value, if it can be written. -/
def dump (value : Value) : Except Unwritable String :=
  match problem? value with
  | some problem => .error problem
  | none => .ok (render value)

end RamlTypes.Json
