import RamlTypes.Document.BadScalar
import RamlTypes.Number.Shortest

/-!
# Document values

A schema document is a tree of mappings and lists over scalars. The keys of a mapping are scalars
and keep their order. Where a text is wanted, any value has one: texts stand for themselves, and
inside lists and mappings they are quoted. Only an integer with too many digits cannot be written,
and neither can anything that holds one.
-/

namespace RamlTypes

inductive Scalar where
  | null
  | bool (value : Bool)
  | int (value : Int)
  | float (value : Double)
  | text (value : String)
  | timestamp (value : Timestamp)
  | bytes (value : List UInt8)
deriving DecidableEq, Repr, Inhabited

inductive Value where
  | scalar (value : Scalar)
  | list (items : List Value)
  | map (entries : List (Scalar × Value))
  /-- A set, in the order in which it is gone through. -/
  | set (items : List Scalar)
  | pair (first second : Value)
deriving Repr, Inhabited

namespace Scalar

def display : Scalar → String
  | null => "None"
  | bool true => "True"
  | bool false => "False"
  | int n => toString n
  | float x => x.text
  | text s => s
  | timestamp t => t.text
  | bytes value => Text.quotedBytes value

/-- A scalar as it is shown inside a message or a list. -/
def quoted : Scalar → String
  | text s => Text.quoted s
  | timestamp t => t.quoted
  | other => other.display

/-- Whether a scalar can be written: integers have at most so many digits. -/
def isPrintable : Scalar → Bool
  | int n => n.natAbs < Nat.pow 10 maxIntegerDigits
  | _ => true

/-- Null, false, zero and what is empty count as missing. -/
def isVacant : Scalar → Bool
  | null => true
  | bool b => !b
  | int n => n == 0
  | float x => x.isZero
  | text s => s == ""
  | timestamp _ => false
  | bytes value => value.isEmpty

def kindName : Scalar → String
  | null => "NoneType"
  | bool _ => "bool"
  | int _ => "int"
  | float _ => "float"
  | text _ => "str"
  | timestamp t => if t.time.isSome then "datetime" else "date"
  | bytes _ => "bytes"

/-- The full name of the kind, which has a module in front for points in time. -/
def typeName : Scalar → String
  | timestamp t => "datetime." ++ (timestamp t).kindName
  | other => other.kindName

/-- The integer that a key counts as. Truth values count as one and zero. -/
def wholeNumber? : Scalar → Option Int
  | bool b => some (if b then 1 else 0)
  | int n => some n
  | float x => x.toInt?
  | _ => none

/-- Whether two scalars are the same key. Numbers and points in time are compared by what they
stand for, and what is not a number is never the same. -/
def sameKey (a b : Scalar) : Bool :=
  match a, b with
  | timestamp s, timestamp t => s.isSame t
  | a, b =>
      match a.wholeNumber?, b.wholeNumber? with
      | some m, some n => m == n
      | none, none => a == b && a != .float .nan
      | _, _ => false

end Scalar

/-- The entries of a mapping in order. -/
abbrev Entries := List (Scalar × Value)

/-- Replaces the value of the entry with the same key, or adds an entry at the end. -/
def Entries.insert (key : Scalar) (value : Value) : Entries → Entries
  | [] => [(key, value)]
  | (k, v) :: rest =>
      if k.sameKey key then (k, value) :: rest else (k, v) :: Entries.insert key value rest

/-- The mapping that pairs of keys and values stand for, written one after the other. -/
def Entries.ofList (pairs : List (Scalar × Value)) : Entries :=
  pairs.foldl (fun entries pair => entries.insert pair.1 pair.2) []

/-- The value of the entry whose key is the given text. -/
def Entries.facet? (name : String) (entries : Entries) : Option Value := entries.lookup (.text name)

namespace Value

abbrev null : Value := .scalar .null

abbrev text (s : String) : Value := .scalar (.text s)

instance : Coe String Value := ⟨text⟩

mutual

def quoted : Value → String
  | .scalar s => s.quoted
  | .list items => "[" ++ ", ".intercalate (quotedItems items) ++ "]"
  | .map entries => "\x7b" ++ ", ".intercalate (quotedEntries entries) ++ "\x7d"
  | .set [] => "set()"
  | .set items => "\x7b" ++ ", ".intercalate (items.map (·.quoted)) ++ "\x7d"
  | .pair first second => "(" ++ first.quoted ++ ", " ++ second.quoted ++ ")"

def quotedItems : List Value → List String
  | [] => []
  | item :: rest => item.quoted :: quotedItems rest

def quotedEntries : List (Scalar × Value) → List String
  | [] => []
  | (key, value) :: rest => (key.quoted ++ ": " ++ value.quoted) :: quotedEntries rest

end

def display : Value → String
  | .scalar s => s.display
  | other => other.quoted

mutual

/-- Whether a value can be written, with all that is inside of it. -/
def isPrintable : Value → Bool
  | .scalar s => s.isPrintable
  | .list items => arePrintable items
  | .map entries => entriesArePrintable entries
  | .set items => items.all (·.isPrintable)
  | .pair first second => first.isPrintable && second.isPrintable

def arePrintable : List Value → Bool
  | [] => true
  | item :: rest => item.isPrintable && arePrintable rest

def entriesArePrintable : List (Scalar × Value) → Bool
  | [] => true
  | (key, value) :: rest => key.isPrintable && value.isPrintable && entriesArePrintable rest

end

/-- Values that a section or facet may hold instead of being left out. -/
def isVacant : Value → Bool
  | .scalar s => s.isVacant
  | .list items => items.isEmpty
  | .map entries => entries.isEmpty
  | .set items => items.isEmpty
  | .pair _ _ => false

def kindName : Value → String
  | .scalar s => s.kindName
  | .list _ => "list"
  | .map _ => "dict"
  | .set _ => "set"
  | .pair _ _ => "tuple"

def typeName : Value → String
  | .scalar s => s.typeName
  | other => other.kindName

/-- The kind of the first collection that keeps a value from being a key. -/
def keyProblem? : Value → Option String
  | .scalar _ => none
  | .pair first second => first.keyProblem?.or second.keyProblem?
  | other => some other.kindName

end Value

/-- The text of an optional facet; a vacant one has the empty text. -/
def facetText (facet : Option Value) : String :=
  match facet with
  | some value => if value.isVacant then "" else value.display
  | none => ""

theorem Entries.facet?_cons (name : String) (key : Scalar) (value : Value) (rest : Entries) :
    facet? name ((key, value) :: rest) =
      if key = .text name then some value else facet? name rest := by
  rw [facet?, List.lookup_cons, facet?]
  by_cases same : key = .text name
  · simp [same]
  · rw [if_neg same, beq_false_of_ne (Ne.symm same)]

theorem Entries.mem_of_facet? {name : String} {entries : Entries} {value : Value}
    (found : facet? name entries = some value) : (.text name, value) ∈ entries := by
  obtain ⟨before, after, rfl, _⟩ := List.lookup_eq_some_iff.mp found
  simp

theorem sizeOf_facet?_lt {name : String} {entries : Entries} {value : Value}
    (found : Entries.facet? name entries = some value) : sizeOf value < sizeOf entries := by
  have inside := List.sizeOf_lt_of_mem (Entries.mem_of_facet? found)
  simp only [Prod.mk.sizeOf_spec] at inside
  omega

end RamlTypes
