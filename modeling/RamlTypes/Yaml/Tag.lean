import RamlTypes.Yaml.Scalar.Number
import RamlTypes.Yaml.Scalar.Timestamp

/-!
# Kinds of nodes

A tag tells what kind of value a node stands for. A plain scalar without a tag has the kind that it
is written as, and is a text otherwise.
-/

namespace RamlTypes.Yaml

inductive Tag where
  | null
  | bool
  | int
  | float
  | binary
  | timestamp
  | text
  | list
  | mapping
  | set
  /-- A list of mappings with one entry each. -/
  | entries
  /-- The key for mappings of which the entries are taken over. -/
  | merge
  /-- The key for the scalar that a mapping counts as. -/
  | scalar
  | unknown
deriving DecidableEq, Repr

namespace Tag

def isCollection (tag : Tag) : Bool := tag ∈ [list, mapping, set, entries]

/-- What the tags of the standard kinds start with. -/
def standard : String := "tag:yaml.org,2002:"

def names : List (String × Tag) :=
  [("null", null), ("bool", bool), ("int", int), ("float", float), ("binary", binary),
    ("timestamp", timestamp), ("str", text), ("seq", list), ("map", mapping), ("set", set),
    ("omap", entries), ("pairs", entries), ("merge", merge), ("value", scalar)]

/-- The kind that a tag in full stands for. -/
def ofText (s : String) : Tag :=
  ((names.find? fun name => standard ++ name.1 = s).map Prod.snd).getD unknown

/-- The spellings of the truth values. -/
def truthWords : List String :=
  ["yes", "Yes", "YES", "no", "No", "NO", "true", "True", "TRUE", "false", "False", "FALSE", "on",
    "On", "ON", "off", "Off", "OFF"]

def nullWords : List String := ["~", "null", "Null", "NULL"]

/-- The kind that a plain scalar is written as. -/
def ofWord (cs : List Char) : Tag :=
  let word := String.ofList cs
  if word ∈ truthWords then bool
  else if isFloat cs then float
  else if isInteger cs then int
  else if word = "<<" then merge
  else if word ∈ nullWords then null
  else if Timestamp.isTimestamp cs then timestamp
  else if word = "=" then scalar
  else if word ∈ ["!", "&", "*"] then unknown
  else text

/-- A text without a line feed at its end. -/
def withoutLineEnd (cs : List Char) : List Char :=
  if cs.getLast? = some '\n' then cs.dropLast else cs

/-- The kind of a plain scalar. A line feed at its end does not matter. -/
def ofPlain (s : String) : Tag := if s = "" then null else ofWord (withoutLineEnd s.toList)

end Tag

end RamlTypes.Yaml
