import RamlTypes.Yaml.Token.Block
import RamlTypes.Yaml.Token.Property

/-!
# Directives

A directive is a line in front of a document. It tells the version of the text, or what a handle of
tags stands for; any other one says nothing.
-/

namespace RamlTypes.Yaml

/-- Reads a number of decimal digits. -/
def readDecimal (c : Cursor) : Except Failure (Nat × Cursor) :=
  let digits := c.rest.takeWhile (·.isDigit)
  if digits = [] then .error .malformed
  else if maxIntegerDigits < digits.length then
    .error (.badScalar (.longInteger digits.length))
  else .ok (Nat.ofDigitChars 10 digits 0, c.advance digits.length)

/-- Reads a major and a minor version with a point between them. -/
def readVersion (c : Cursor) : Except Failure (Token × Cursor) := do
  let (major, behind) ← readDecimal c
  if behind.peek = some '.' then
    let (_, behind) ← readDecimal behind.next
    if endsName behind.peek then return (.versionDirective major, behind) else throw .malformed
  else throw .malformed

/-- Reads a handle and what it stands for. -/
def readTagDirective (c : Cursor) : Option (Token × Cursor) := do
  let (handle, behind) ← readHandle c
  if behind.peek = some ' ' then
    let (text, behind) ← readTagText behind.skipSpaces
    if endsName behind.peek then some (.tagDirective handle text, behind) else none
  else none

/-- Reads a directive behind its percent sign. -/
def readDirective (c : Cursor) : Except Failure (Token × Cursor) :=
  match readName c with
  | none => .error .malformed
  | some (name, behind) => do
      if !endsName behind.peek then throw .malformed
      let (token, behind) ←
        match name with
        | "YAML" => readVersion behind.skipSpaces
        | "TAG" =>
            match readTagDirective behind.skipSpaces with
            | some result => .ok result
            | none => .error .malformed
        | _ => .ok (.otherDirective, behind.skip (!isBreak ·))
      match endLine? behind with
      | some behind => return (token, behind)
      | none => throw .malformed

end RamlTypes.Yaml
