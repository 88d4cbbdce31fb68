import RamlTypes.Document.BadScalar
import RamlTypes.Yaml.Cursor

/-!
# Reading points in time

A date stands alone or has a time behind it, which may have a zone. Most parts may be written with
one digit, and a fraction of a second with any number of them.
-/

namespace RamlTypes

/-- The first part of a time that is out of range. -/
def TimeOfDay.problem? (time : TimeOfDay) : Option DatePart :=
  if 23 < time.hour then some .hour
  else if 59 < time.minute then some .minute
  else if 59 < time.second then some .second
  else none

namespace Timestamp

/-- Reads at least `least` and at most `most` digits. Gives their value and the rest. -/
def digits? (least most : Nat) (cs : List Char) : Option (Nat × List Char) :=
  let digits := (cs.take most).takeWhile (·.isDigit)
  if digits.length < least then none
  else some (Nat.ofDigitChars 10 digits 0, cs.drop digits.length)

/-- The text behind a character. -/
def behind? (c : Char) : List Char → Option (List Char)
  | first :: rest => if first = c then some rest else none
  | [] => none

/-- Reads the offset of a zone up to the end of a text. -/
def zone? : List Char → Option (Option Int)
  | [] => some none
  | ['Z'] => some (some 0)
  | sign :: rest => do
      if sign != '+' && sign != '-' then none
      let (hours, rest) ← digits? 1 2 rest
      let (minutes, rest) ← if rest = [] then some (0, []) else digits? 2 2 (← behind? ':' rest)
      if rest != [] then none
      let offset : Int := 3600 * hours + 60 * minutes
      return some (if sign = '-' then -offset else offset)

/-- The first six digits of a fraction of a second, as a number. -/
def microseconds (fraction : List Char) : Nat :=
  Nat.ofDigitChars 10 ((fraction ++ List.replicate 6 '0').take 6) 0

/-- Reads a time with its zone up to the end of a text. -/
def time? (cs : List Char) : Option TimeOfDay := do
  let (hour, cs) ← digits? 1 2 cs
  let (minute, cs) ← digits? 2 2 (← behind? ':' cs)
  let (second, cs) ← digits? 2 2 (← behind? ':' cs)
  let point := cs.head? = some '.'
  let fraction := if point then cs.tail.takeWhile (·.isDigit) else []
  let cs := if point then cs.tail.drop fraction.length else cs
  let zone := cs.dropWhile Yaml.isBlank
  if zone = [] ∧ cs ≠ [] then none
  return ⟨hour, minute, second, microseconds fraction, ← zone? zone⟩

/-- Reads a point in time up to the end of a text. The letter T or blanks separate its parts. -/
def read? (cs : List Char) : Option Timestamp := do
  let (year, cs) ← digits? 4 4 cs
  let (month, cs) ← digits? 1 2 (← behind? '-' cs)
  let (day, cs) ← digits? 1 2 (← behind? '-' cs)
  match cs with
  | [] => return ⟨year, month, day, none⟩
  | c :: rest =>
      if c = 'T' ∨ c = 't' then return ⟨year, month, day, ← time? rest⟩
      else if Yaml.isBlank c then return ⟨year, month, day, ← time? (rest.dropWhile Yaml.isBlank)⟩
      else none

/-- Whether a plain scalar is a point in time. A date alone has two digits for month and day. -/
def isTimestamp (cs : List Char) : Bool :=
  (read? cs).any fun t => t.time.isSome || cs.length = 10

/-- The part that is out of range, if there is one: the offset first, and then from the year on. -/
def problem? (t : Timestamp) : Option DatePart :=
  match t.time.bind (·.offset) |>.filter fun offset => 86400 ≤ offset.natAbs with
  | some offset => some (.offset offset)
  | none =>
      if t.year = 0 then some (.year t.year)
      else if t.month = 0 ∨ 12 < t.month then some .month
      else if t.day = 0 ∨ daysIn t.year t.month < t.day then some .day
      else t.time.bind TimeOfDay.problem?

end Timestamp

/-- The point in time that a scalar stands for. -/
def Yaml.readTimestamp (cs : List Char) : Except BadScalar Timestamp :=
  match Timestamp.read? cs with
  | none => .error .timestamp
  | some t =>
      match t.problem? with
      | some part => .error (.date part)
      | none => .ok t

end RamlTypes
