import RamlTypes.Text.Hex
import RamlTypes.Yaml.Cursor
import RamlTypes.Yaml.Token

/-!
# Quoted scalars

White space around a line end is left out. One line end alone stands for a blank, and of several
ones the first stands for nothing. Between single quotes two of them stand for one; between double
quotes a backslash starts an escape, and one before a line end joins the lines.
-/

namespace RamlTypes.Yaml

/-- The empty lines behind a line end and the blanks in front of the next text: what they stand for
and how many characters they take. A mark between documents must not follow. -/
def emptyLines (cs : List Char) : Option (List Char × Nat) :=
  if startsSeparator cs then none
  else
    let blanks := (cs.takeWhile isBlank).length
    match _behind : cs.drop blanks with
    | [] => some ([], blanks)
    | c :: rest =>
        if isBreak c then
          (emptyLines rest).map fun (breaks, taken) => (breakChar c :: breaks, blanks + 1 + taken)
        else some ([], blanks)
termination_by cs.length
decreasing_by
  have := congrArg List.length _behind
  simp only [List.length_drop, List.length_cons] at this
  omega

/-- White space inside of a quoted scalar: what it stands for and how many characters it takes. -/
def quotedSpace (cs : List Char) : Option (List Char × Nat) :=
  let blanks := cs.takeWhile isBlank
  match cs.drop blanks.length with
  | [] => none
  | c :: rest =>
      if isBreak c then
        (emptyLines rest).map fun (breaks, taken) =>
          let first := if breakChar c ≠ '\n' then [c] else if breaks = [] then [' '] else []
          (first ++ breaks, blanks.length + 1 + taken)
      else some (blanks, blanks.length)

/-- The escapes with a single character. -/
def simpleEscapes : List (Char × Char) :=
  [('0', '\x00'), ('a', '\x07'), ('b', '\x08'), ('t', '\t'), ('\t', '\t'), ('n', '\n'),
    ('v', '\x0b'), ('f', '\x0c'), ('r', '\r'), ('e', '\x1b'), (' ', ' '), ('"', '"'),
    ('\\', '\\'), ('/', '/'), ('N', '\u0085'), ('_', '\u00a0'), ('L', '\u2028'), ('P', '\u2029')]

/-- How many hexadecimal digits follow the letter of an escape. -/
def escapeWidth? : Char → Option Nat
  | 'x' => some 2
  | 'u' => some 4
  | 'U' => some 8
  | _ => none

/-- The number that the first `width` characters of a text stand for in hexadecimal digits. -/
def hexNumber? (width : Nat) (cs : List Char) : Option Nat :=
  let digits := (cs.take width).filterMap Text.hexValue?
  if digits.length = width then some (digits.foldl (fun n digit => 16 * n + digit) 0) else none

/-- The character of a code point; half of a surrogate pair stands for U+FFFD. -/
def charOf (code : Nat) : Except Failure Char :=
  if code < 0x110000 then
    .ok (if 0xD800 ≤ code ∧ code < 0xE000 then '\ufffd' else Char.ofNat code)
  else .error (.badScalar (.codePoint code))

/-- The escape behind a backslash: what it stands for and how many characters it takes. -/
def readEscape : List Char → Except Failure (List Char × Nat)
  | [] => .error .malformed
  | c :: rest =>
      match simpleEscapes.lookup c, escapeWidth? c with
      | some char, _ => .ok ([char], 1)
      | none, some width =>
          match hexNumber? width rest with
          | some code => (charOf code).map fun char => ([char], 1 + width)
          | none => .error .malformed
      | none, none =>
          if isBreak c then
            match emptyLines rest with
            | some (breaks, taken) => .ok (breaks, 1 + taken)
            | none => .error .malformed
          else .error .malformed

/-- Reads a quoted scalar behind its opening quote. Gives its text and the cursor behind the closing
quote; `read` holds the characters so far in reverse. -/
def readQuoted (double : Bool) (read : List Char) (c : Cursor) :
    Except Failure (String × Cursor) :=
  match _here : c.rest with
  | [] => .error .malformed
  | first :: rest =>
      if first = '"' ∧ double = true then .ok (String.ofList read.reverse, c.next)
      else if first = '\'' ∧ double = false then
        if rest.head? = some '\'' then readQuoted double ('\'' :: read) (c.advance 2)
        else .ok (String.ofList read.reverse, c.next)
      else if first = '\\' ∧ double = true then
        match readEscape rest with
        | .error failure => .error failure
        | .ok (chars, taken) =>
            readQuoted double (chars.reverse ++ read) (c.next.advance taken)
      else if isBlank first || isBreak first then
        match quotedSpace (first :: rest) with
        | none => .error .malformed
        | some (chars, taken) =>
            readQuoted double (chars.reverse ++ read) (c.next.advance (taken - 1))
      else readQuoted double (first :: read) c.next
termination_by c.rest.length
decreasing_by all_goals (simp [_here]; try omega)

end RamlTypes.Yaml
