import RamlTypes.Document.Timestamp
import RamlTypes.Text.Quoted

/-!
# Unreadable scalars

A scalar of a document may have the form of a number, a date or an escaped character and still
stand for nothing. Such a scalar is no defect of the schema: the document cannot be read at all.
-/

namespace RamlTypes

/-- The part of a point in time that is out of range. -/
inductive DatePart where
  | year (value : Nat)
  | month
  | day
  | hour
  | minute
  | second
  /-- The offset from universal time, in seconds; it has to be less than a day. -/
  | offset (seconds : Int)
deriving DecidableEq, Repr

/-- Why a scalar cannot be read. -/
inductive BadScalar where
  /-- An escape for a code point beyond the last one. -/
  | codePoint (code : Nat)
  /-- Digits are missing altogether. -/
  | emptyInteger
  | integer (base : Nat) (text : String)
  /-- A decimal integer with too many digits. -/
  | longInteger (digits : Nat)
  | float (text : String)
  /-- A place of base sixty that is beyond all floating-point numbers. -/
  | hugePlace
  | truthValue (text : String)
  | timestamp
  | date (part : DatePart)
deriving DecidableEq, Repr

/-- The most digits that a decimal integer is read from or written with. -/
def maxIntegerDigits : Nat := 4300

/-- What is said about an integer with too many digits to be written. -/
def longNumberMessage : String :=
  "Exceeds the limit (" ++ toString maxIntegerDigits ++
    " digits) for integer string conversion; use sys.set_int_max_str_digits() to increase the limit"

def DatePart.message : DatePart → String
  | year value => "year " ++ toString value ++ " is out of range"
  | month => "month must be in 1..12"
  | day => "day is out of range for month"
  | hour => "hour must be in 0..23"
  | minute => "minute must be in 0..59"
  | second => "second must be in 0..59"
  | offset seconds =>
      "offset must be a timedelta strictly between -timedelta(hours=24) and " ++
        "timedelta(hours=24), not " ++ daysAndSeconds seconds ++ "."

namespace BadScalar

/-- Whether a code point needs more than 31 bits. -/
def isHuge (code : Nat) : Bool := 0x80000000 ≤ code

/-- The start of a quoted text, for a message that shows no more than 200 characters of it. -/
def quotedStart (text : String) : String := .ofList ((Text.quoted text).toList.take 200)

def message : BadScalar → String
  | codePoint code =>
      if isHuge code then "Python int too large to convert to C int"
      else "chr() arg not in range(0x110000)"
  | emptyInteger => "string index out of range"
  | integer base text =>
      "invalid literal for int() with base " ++ toString base ++ ": " ++ quotedStart text
  | longInteger digits =>
      "Exceeds the limit (" ++ toString maxIntegerDigits ++
        " digits) for integer string conversion: value has " ++ toString digits ++
        " digits; use sys.set_int_max_str_digits() to increase the limit"
  | float text => "could not convert string to float: " ++ Text.quoted text
  | hugePlace => "int too large to convert to float"
  | truthValue text => Text.quoted text
  | timestamp => "'NoneType' object has no attribute 'groupdict'"
  | date part => part.message

end BadScalar

end RamlTypes
