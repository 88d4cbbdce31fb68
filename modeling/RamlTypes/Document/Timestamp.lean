/-!
# Points in time

A date stands alone or has a time of the day behind it, which may have a zone. The text of a point
in time has two digits for every part but the year.
-/

namespace RamlTypes

/-- A number with leading zeros. -/
def padded (width n : Nat) : String :=
  let digits := Nat.toDigits 10 n
  String.ofList (List.replicate (width - digits.length) '0' ++ digits)

/-- A span of time as a number of days and the seconds of the last one; zeros are left out. -/
def daysAndSeconds (seconds : Int) : String :=
  let days := seconds.fdiv 86400
  let rest := seconds.fmod 86400
  let parts :=
    (if days = 0 then [] else ["days=" ++ toString days]) ++
      (if rest = 0 then [] else ["seconds=" ++ toString rest])
  "datetime.timedelta(" ++ ", ".intercalate parts ++ ")"

/-- A time of a day. The offset of its zone from universal time is given in seconds. -/
structure TimeOfDay where
  hour : Nat
  minute : Nat
  second : Nat
  microsecond : Nat
  offset : Option Int
deriving DecidableEq, Repr

namespace TimeOfDay

def offsetText : Option Int → String
  | none => ""
  | some offset =>
      let minutes := offset.natAbs / 60
      (if offset < 0 then "-" else "+") ++ padded 2 (minutes / 60) ++ ":" ++ padded 2 (minutes % 60)

def text (time : TimeOfDay) : String :=
  padded 2 time.hour ++ ":" ++ padded 2 time.minute ++ ":" ++ padded 2 time.second ++
    (if time.microsecond = 0 then "" else "." ++ padded 6 time.microsecond) ++
    offsetText time.offset

/-- The parts of a time in a message. Seconds are left out where all behind them are zero too. -/
def parts (time : TimeOfDay) : List Nat :=
  [time.hour, time.minute] ++
    if time.microsecond ≠ 0 then [time.second, time.microsecond]
    else if time.second ≠ 0 then [time.second]
    else []

def zone : Option Int → List String
  | none => []
  | some offset =>
      ["tzinfo=" ++
        if offset = 0 then "datetime.timezone.utc"
        else "datetime.timezone(" ++ daysAndSeconds offset ++ ")"]

/-- The microseconds since the day began. -/
def elapsed (time : TimeOfDay) : Nat :=
  ((time.hour * 60 + time.minute) * 60 + time.second) * 1000000 + time.microsecond

end TimeOfDay

structure Timestamp where
  year : Nat
  month : Nat
  day : Nat
  time : Option TimeOfDay
deriving DecidableEq, Repr

namespace Timestamp

def isLeap (year : Nat) : Bool := year % 4 = 0 && (year % 100 ≠ 0 || year % 400 = 0)

def daysIn (year month : Nat) : Nat :=
  if month = 2 then if isLeap year then 29 else 28
  else if month ∈ [4, 6, 9, 11] then 30 else 31

/-- The number of a day, counted from the first one of the first year. -/
def dayNumber (t : Timestamp) : Nat :=
  let before := t.year - 1
  365 * before + before / 4 - before / 100 + before / 400 +
    (List.range' 1 (t.month - 1)).foldl (fun days month => days + daysIn t.year month) 0 + t.day

/-- The microseconds up to a point in time with a zone. -/
def instant? (t : Timestamp) : Option Int :=
  t.time.bind fun time => time.offset.map fun offset =>
    ((t.dayNumber * 86400000000 + time.elapsed : Nat) : Int) - offset * 1000000

/-- Whether two points in time are the same. Those with zones may be written differently. -/
def isSame (s t : Timestamp) : Bool :=
  match s.instant?, t.instant? with
  | some m, some n => m == n
  | _, _ => s == t

def text (t : Timestamp) : String :=
  padded 4 t.year ++ "-" ++ padded 2 t.month ++ "-" ++ padded 2 t.day ++
    match t.time with
    | none => ""
    | some time => " " ++ time.text

/-- A point in time as it is shown inside a message. -/
def quoted (t : Timestamp) : String :=
  let numbers (time : List Nat) := ([t.year, t.month, t.day] ++ time).map toString
  match t.time with
  | none => "datetime.date(" ++ ", ".intercalate (numbers []) ++ ")"
  | some time =>
      "datetime.datetime(" ++
        ", ".intercalate (numbers time.parts ++ TimeOfDay.zone time.offset) ++ ")"

end Timestamp

end RamlTypes
