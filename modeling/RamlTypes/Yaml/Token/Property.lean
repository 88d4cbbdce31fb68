import RamlTypes.Text.Hex
import RamlTypes.Yaml.Cursor
import RamlTypes.Yaml.Token

/-!
# Anchors and tags

An anchor gives a name to a node and a reference repeats that node. A tag tells what kind of value a
node stands for: it is written out in full between angle brackets, or begins with a handle that
stands for its first part.
-/

namespace RamlTypes.Yaml

def isNameChar (c : Char) : Bool := c.isAlphanum || c == '-' || c == '_'

/-- The name at a place and the cursor behind it, unless the name is empty. -/
def readName (c : Cursor) : Option (String × Cursor) :=
  let name := c.rest.takeWhile isNameChar
  if name = [] then none else some (String.ofList name, c.advance name.length)

/-- Whether a character, or the end of the text, may follow the name of an anchor. -/
def endsAnchor (c : Option Char) : Bool := endsWord c || c.any ("?:,]\x7d%@\x60".contains ·)

/-- Reads the name of an anchor or a reference behind its mark and makes it a token. -/
def readAnchor (make : String → Token) (c : Cursor) : Option (Token × Cursor) := do
  let (name, behind) ← readName c
  if endsAnchor behind.peek then some (make name, behind) else none

/-- The characters of a tag that stand for themselves. -/
def isTagChar (c : Char) : Bool := c.isAlphanum || "-;/?:@&=+$,_.!~*'()[]".contains c

/-- The bytes at the start of a text that are escaped, by a percent sign and two digits each. -/
def escapedBytes : List Char → Option (List UInt8)
  | '%' :: high :: low :: rest => do
      let high ← Text.hexValue? high
      let low ← Text.hexValue? low
      return (16 * high + low).toUInt8 :: (← escapedBytes rest)
  | '%' :: _ => none
  | _ => some []

/-- The text of a tag at the start of a text, and how many characters it takes. Escaped bytes are
characters in UTF-8. -/
def tagChars (cs : List Char) : Option (List Char × Nat) :=
  match cs with
  | [] => some ([], 0)
  | c :: rest =>
      if c = '%' then do
        let bytes ← escapedBytes (c :: rest)
        let text ← String.fromUTF8? ⟨bytes.toArray⟩
        let (chars, taken) ← tagChars (rest.drop (3 * bytes.length - 1))
        some (text.toList ++ chars, 3 * bytes.length + taken)
      else if isTagChar c then (tagChars rest).map fun (chars, taken) => (c :: chars, taken + 1)
      else some ([], 0)
termination_by cs.length
decreasing_by all_goals (simp; try omega)

/-- Reads a part of a tag that must not be empty. -/
def readTagText (c : Cursor) : Option (String × Cursor) := do
  let (chars, taken) ← tagChars c.rest
  if taken = 0 then none else some (String.ofList chars, c.advance taken)

/-- Reads a handle: one exclamation mark in front of a space, or a name between two of them. -/
def readHandle (c : Cursor) : Option (String × Cursor) :=
  if c.peek != some '!' then none
  else if c.next.peek = some ' ' then some ("!", c.next)
  else
    let name := c.next.rest.takeWhile isNameChar
    let behind := c.next.advance name.length
    if behind.peek = some '!' then some ("!" ++ String.ofList name ++ "!", behind.next) else none

/-- Reads a tag from its exclamation mark on. -/
def readTag (c : Cursor) : Option (Token × Cursor) := do
  let (token, behind) ←
    if c.next.peek = some '<' then do
      let (text, behind) ← readTagText (c.advance 2)
      if behind.peek = some '>' then some (.tag none text, behind.next) else none
    else if endsWord c.next.peek then some (.tag none "!", c.next)
    else do
      let named := (c.next.rest.takeWhile fun c => !endsName (some c)).contains '!'
      let (handle, behind) ← if named then readHandle c else some ("!", c.next)
      let (text, behind) ← readTagText behind
      some (.tag (some handle) text, behind)
  if endsName behind.peek then some (token, behind) else none

end RamlTypes.Yaml
