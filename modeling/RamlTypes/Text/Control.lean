/-!
# Control sequences

An escape character and a bracket start a control sequence of a terminal. Parameters follow, then
intermediate characters, and one final character. A message that is not written to a terminal
leaves these sequences out.
-/

namespace RamlTypes.Text

/-- Digits, colon, semicolon and the four signs behind them. -/
def isControlParameter (c : Char) : Bool := '0' ≤ c && c ≤ '?'

/-- The space and the signs in front of the digits. -/
def isControlIntermediate (c : Char) : Bool := ' ' ≤ c && c ≤ '/'

/-- Letters and the signs around them. -/
def isControlFinal (c : Char) : Bool := '@' ≤ c && c ≤ '~'

/-- How many characters behind an escape character belong to a control sequence. -/
def controlLength? : List Char → Option Nat
  | '[' :: rest =>
      let parameters := rest.takeWhile isControlParameter
      let behind := rest.drop parameters.length
      let intermediates := behind.takeWhile isControlIntermediate
      match behind.drop intermediates.length with
      | c :: _ =>
          if isControlFinal c then some (parameters.length + intermediates.length + 2) else none
      | [] => none
  | _ => none

/-- A text without its control sequences; `skipped` characters of one are still ahead. -/
def dropControls (skipped : Nat) : List Char → List Char
  | [] => []
  | c :: rest =>
      match skipped with
      | skipped + 1 => dropControls skipped rest
      | 0 =>
          if c = '\x1b' then
            match controlLength? rest with
            | some length => dropControls length rest
            | none => c :: dropControls 0 rest
          else c :: dropControls 0 rest

def withoutControls (s : String) : String := String.ofList (dropControls 0 s.toList)

end RamlTypes.Text
