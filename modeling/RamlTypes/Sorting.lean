/-!
# Stable sorting

Sorting by insertion keeps elements that compare equal in their given order. It does what merge sort
does, by a recursion that follows the list.
-/

namespace RamlTypes

variable {α : Type}

/-- Puts an element before the first one that it may precede. -/
def insertSorted (le : α → α → Bool) (a : α) : List α → List α
  | [] => [a]
  | b :: rest => if le a b then a :: b :: rest else b :: insertSorted le a rest

def sortWith (le : α → α → Bool) : List α → List α
  | [] => []
  | a :: rest => insertSorted le a (sortWith le rest)

/-- Sorts by the text that each element is known by, in the order of code points. -/
def sortOn (key : α → String) : List α → List α :=
  sortWith fun a b => decide (key a ≤ key b)

/-- Names in the order of code points. -/
def sortNames : List String → List String := sortOn id

/-- The first of the elements with the least measure. -/
def leastBy (measure : α → Nat) : List α → Option α
  | [] => none
  | a :: rest =>
      match leastBy measure rest with
      | none => some a
      | some b => if measure b < measure a then some b else some a

end RamlTypes
