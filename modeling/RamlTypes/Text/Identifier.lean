import RamlTypes.Text.Blank
import RamlTypes.Text.Upper

/-!
# Identifiers made from text

Title case raises the first character of every word and names enums; an identifier made from a
text is its upper case with an underscore for every character that is not a letter, a digit or an
underscore of ASCII.
-/

namespace RamlTypes.Text

/-- The letters and digits of ASCII and the underscore. -/
def isWordChar (c : Char) : Bool := c.isAlphanum || c == '_'

/-- Whether a character ends a word. Beyond ASCII only white space does. -/
def separatesWords (c : Char) : Bool :=
  if c.toNat < 0x80 then !isWordChar c else isBlank c

/-- Raises every character that stands first or after the end of a word; `previous` is the
character before. -/
def titleCaseAfter (previous : Char) : List Char → List Char
  | [] => []
  | c :: rest => (if separatesWords previous then upperChar c else [c]) ++ titleCaseAfter c rest

def titleCase (s : String) : String := String.ofList (titleCaseAfter ' ' s.toList)

/-- The characters of an identifier before a leading digit is shielded. -/
def identifierChars (cs : List Char) : List Char :=
  (upper cs).map fun c => if isWordChar c then c else '_'

/-- An identifier from any text; it gets a leading underscore where it would start with a
digit. The empty text gives the empty identifier. -/
def identifier (s : String) : String :=
  match identifierChars s.toList with
  | [] => ""
  | c :: rest => String.ofList (if c.isDigit then '_' :: c :: rest else c :: rest)

end RamlTypes.Text
