/-!
# Lower case, for words of ASCII

Verbs, annotation styles and the like are compared in lower case with words of ASCII letters. So
only those characters matter whose lower case is such a letter; all others are kept.
-/

namespace RamlTypes.Text

/-- Beyond the capitals only the Kelvin sign has a letter of ASCII for its lower case. -/
def lowerChar (c : Char) : Char :=
  if 'A' ≤ c ∧ c ≤ 'Z' then Char.ofNat (c.toNat + 0x20) else if c = '\u212a' then 'k' else c

def lower (s : String) : String := String.ofList (s.toList.map lowerChar)

/-- Case folding also takes the long s for an s. -/
def foldChar (c : Char) : Char := if c = '\u017f' then 's' else lowerChar c

def foldCase (s : String) : String := String.ofList (s.toList.map foldChar)

end RamlTypes.Text
