import RamlTypes.Document.Value
import RamlTypes.Yaml.Node
import RamlTypes.Yaml.Node.Level
import RamlTypes.Yaml.Scalar.Binary

/-!
# Values of nodes

A node stands for a value of its kind. The keys of a mapping are scalars. A mapping takes over the
entries of others through a merge key: its own entries come later and win, and of several others the
first ones do. Scalars are read where they stand, and what is in a collection is read one level
further down.
-/

namespace RamlTypes.Yaml

/-- The truth values in lower case. -/
def truthValues : List (String × Bool) :=
  [("yes", true), ("no", false), ("true", true), ("false", false), ("on", true), ("off", false)]

def readTruth (text : String) : Except BadScalar Bool :=
  let word := Text.lower text
  match truthValues.lookup word with
  | some value => .ok value
  | none => .error (.truthValue word)

/-- The value of a kind that a text stands for. A text that is tagged as a collection fails when the
items of the collection are read. -/
def scalarValue (tag : Tag) (text : String) : Levelled Value :=
  let ofScalar {α : Type} (make : α → Scalar) (result : Except BadScalar α) : Levelled Value :=
    (result.map fun a => Value.scalar (make a)).mapError fun problem => (0, .badScalar problem)
  match tag with
  | .null => .ok .null
  | .bool => ofScalar .bool (readTruth text)
  | .int => ofScalar .int (readInteger text)
  | .float => ofScalar .float (readFloat text)
  | .timestamp => ofScalar .timestamp (readTimestamp (Tag.withoutLineEnd text.toList))
  | .text => .ok (.text text)
  | .binary =>
      match readBinary text.toList with
      | some bytes => .ok (.scalar (.bytes bytes))
      | none => .fail .malformed
  | tag => if tag.isCollection then .below (.fail .malformed) else .fail .malformed

mutual

/-- The text of a node that counts as a scalar. A mapping does so through an entry for that. -/
def Node.text? : Node → Option String
  | .scalar _ text => some text
  | .mapping _ pairs => textOf? pairs
  | .sequence _ _ => none

def textOf? : List (Node × Node) → Option String
  | [] => none
  | (key, value) :: rest => if key.tag = .scalar then value.text? else textOf? rest

end

/-- The key that a node stands for, if it has the given value. Collections are no keys, whatever is
in them, and the key for a scalar counts as a text. -/
def keyOf (key : Node) (value : Levelled Value) : Levelled Scalar :=
  if key.tag = .scalar then
    match key.text? with
    | some text => .ok (.text text)
    | none => .fail .malformed
  else if key.tag.isCollection then .fail .malformed
  else match value with
    | .ok (.scalar s) => .ok s
    | .ok _ => .fail .malformed
    | .error failure => .error failure

/-- The entries of a mapping in the order in which they are entered. -/
structure Inherited where
  /-- Whether all entries are taken over from mappings; that is looked at before any entry. -/
  sound : Bool
  merged : Levelled (List (Scalar × Value))
  own : Levelled (List (Scalar × Value))

namespace Inherited

def none : Inherited := ⟨true, .ok [], .ok []⟩

def unsound : Inherited := ⟨false, .ok [], .ok []⟩

/-- The entries that are taken over and then the own ones. -/
def all (i : Inherited) : Levelled (List (Scalar × Value)) := .both (· ++ ·) i.merged i.own

/-- All entries, if they are taken over from mappings. -/
def checked (i : Inherited) : Levelled (List (Scalar × Value)) :=
  if i.sound then i.all else .fail .malformed

/-- Adds an own entry in front. -/
def addOwn (key : Levelled Scalar) (value : Levelled Value) (i : Inherited) : Inherited :=
  { i with own := .both (· :: ·) (.both (·, ·) key value) i.own }

/-- Adds the entries of another mapping in front of those that are taken over. -/
def takeOver (source i : Inherited) : Inherited :=
  { i with
    sound := source.sound && i.sound
    merged := .both (· ++ ·) source.all i.merged }

end Inherited

mutual

def Node.value : Node → Levelled Value
  | .scalar tag text => scalarValue tag text
  | .sequence tag items =>
      match tag with
      | .list => .below ((valuesOf items).map .list)
      | .entries => .below ((singleEntries items).map .list)
      | tag => if tag.isCollection then .below (.fail .malformed) else .fail .malformed
  | .mapping tag pairs =>
      match tag with
      | .mapping =>
          .below ((entriesOf pairs).checked.map fun entries => .map (Entries.ofList entries))
      | .set =>
          .below ((entriesOf pairs).checked.map fun entries =>
            .set ((Entries.ofList entries).map Prod.fst))
      | tag =>
          if tag.isCollection then .below (.fail .malformed)
          else match textOf? pairs with
            | some text => scalarValue tag text
            | none => .fail .malformed

def valuesOf : List Node → Levelled (List Value)
  | [] => .ok []
  | item :: rest => .both (· :: ·) item.value (valuesOf rest)

/-- The values of mappings with one entry each: the pairs of the key and its value. -/
def singleEntries : List Node → Levelled (List Value)
  | [] => .ok []
  | .mapping _ [(key, value)] :: rest =>
      .both (· :: ·) (.both .pair key.value value.value)
        (singleEntries rest)
  | _ :: _ => .fail .malformed

def entriesOf : List (Node × Node) → Inherited
  | [] => .none
  | (key, value) :: rest =>
      if key.tag = .merge then (mergedOf value).takeOver (entriesOf rest)
      else (entriesOf rest).addOwn (keyOf key key.value) value.value

/-- The entries that a mapping takes over from a node. -/
def mergedOf : Node → Inherited
  | .scalar _ _ => .unsound
  | .mapping _ pairs => entriesOf pairs
  | .sequence _ items => mergedOfAll items

def mergedOfAll : List Node → Inherited
  | [] => .none
  | .mapping _ pairs :: rest =>
      let first := entriesOf pairs
      (mergedOfAll rest).takeOver { first with merged := first.all, own := .ok [] }
  | _ :: _ => .unsound

end

end RamlTypes.Yaml
