import RamlTypes.Text.Hex
import RamlTypes.Text.Printable

/-!
# Quoted text

How a text is shown inside a message: between quotes, with the quote, the backslash and every
character that is not printable written as an escape.
-/

namespace RamlTypes.Text

/-- Single quotes, unless the text holds one and no double quote. -/
def quoteFor (cs : List Char) : Char :=
  if '\'' ∈ cs ∧ '"' ∉ cs then '"' else '\''

/-- One character between the quotes `quote`. Characters that are not printable have the shortest
of the escapes with two, four and eight digits. -/
def escapeChar (quote c : Char) : List Char :=
  if c = quote ∨ c = '\\' then ['\\', c]
  else if c = '\n' then ['\\', 'n']
  else if c = '\t' then ['\\', 't']
  else if c = '\r' then ['\\', 'r']
  else if isPrintable c then [c]
  else if c.toNat < 0x100 then '\\' :: 'x' :: hex 2 c.toNat
  else if c.toNat < 0x10000 then '\\' :: 'u' :: hex 4 c.toNat
  else '\\' :: 'U' :: hex 8 c.toNat

def quoted (s : String) : String :=
  let quote := quoteFor s.toList
  String.ofList (quote :: s.toList.flatMap (escapeChar quote) ++ [quote])

/-- One byte of binary data between the quotes `quote`, shown as a character of ASCII. -/
def escapeByte (quote : Char) (byte : UInt8) : List Char :=
  if byte < 0x7F then escapeChar quote (Char.ofNat byte.toNat)
  else '\\' :: 'x' :: hex 2 byte.toNat

/-- How binary data are shown inside a message. -/
def quotedBytes (bytes : List UInt8) : String :=
  let quote := quoteFor (bytes.map fun byte => Char.ofNat byte.toNat)
  String.ofList ('b' :: quote :: bytes.flatMap (escapeByte quote) ++ [quote])

end RamlTypes.Text
