import RamlTypes.Document.BadScalar

/-!
# Errors in JSON text
-/

namespace RamlTypes.Json

/-- What can be wrong with a JSON text. -/
inductive Problem where
  | expectedValue
  | expectedKey
  | expectedColon
  | expectedComma
  | extraData
  | byteOrderMark
  | unterminatedString
  | controlCharacter
  | badEscape
  | badUnicodeEscape
deriving DecidableEq, Repr

def Problem.message : Problem → String
  | expectedValue => "Expecting value"
  | expectedKey => "Expecting property name enclosed in double quotes"
  | expectedColon => "Expecting ':' delimiter"
  | expectedComma => "Expecting ',' delimiter"
  | extraData => "Extra data"
  | byteOrderMark => "Unexpected UTF-8 BOM (decode using utf-8-sig)"
  | unterminatedString => "Unterminated string starting at"
  | controlCharacter => "Invalid control character at"
  | badEscape => "Invalid \\escape"
  | badUnicodeEscape => "Invalid \\uXXXX escape"

/-- A problem and the offset of the character that shows it. -/
structure SyntaxError where
  problem : Problem
  offset : Nat
deriving DecidableEq, Repr

/-- The line and the column of an offset, both counted from one. -/
def lineAndColumn (cs : List Char) (offset : Nat) : Nat × Nat :=
  let before := cs.take offset
  (before.count '\n' + 1, (before.reverse.takeWhile (· != '\n')).length + 1)

/-- An error as it is reported for a text. -/
def SyntaxError.message (error : SyntaxError) (text : String) : String :=
  let (line, column) := lineAndColumn text.toList error.offset
  error.problem.message ++ ": line " ++ toString line ++ " column " ++ toString column ++
    " (char " ++ toString error.offset ++ ")"

/-- Why a JSON text has no value. -/
inductive Failure where
  | notJson (error : SyntaxError)
  | badScalar (problem : BadScalar)
deriving DecidableEq, Repr

def Failure.message (failure : Failure) (text : String) : String :=
  match failure with
  | notJson error => error.message text
  | badScalar problem => problem.message

end RamlTypes.Json
