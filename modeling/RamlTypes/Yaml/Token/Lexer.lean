import RamlTypes.Yaml.Token.Block
import RamlTypes.Yaml.Token.Directive
import RamlTypes.Yaml.Token.Plain
import RamlTypes.Yaml.Token.Quoted

/-!
# From text to tokens

Outside of flow collections, the columns of tokens open and close block collections. That a token
starts a key shows only at the colon behind it, which has to follow on the same line and not too far
away. Until then the place of the token is kept, and the colon puts the mark of a key there. Where a
character cannot be read, the tokens in front of it that are settled are still known.
-/

namespace RamlTypes.Yaml

/-- The place of a token that may start a key. -/
structure Candidate where
  /-- How many tokens there are in front of it. -/
  index : Nat
  /-- Whether nothing else than a key may start at its column. -/
  required : Bool
  offset : Nat
  line : Nat
  column : Nat

/-- How far behind the start of a key its colon may be. -/
def maxKeyLength : Nat := 1024

/-- Whether a colon at a cursor is out of reach. -/
def Candidate.isStale (c : Cursor) (candidate : Candidate) : Bool :=
  candidate.line ≠ c.line || maxKeyLength < c.offset - candidate.offset

/-- A text of which the tokens up to a cursor are known. -/
structure Scan where
  cursor : Cursor
  /-- The columns of the open block collections, the innermost first. -/
  columns : List Nat
  candidate : Option Candidate
  /-- The candidates around the open flow collections, the innermost first. -/
  outer : List (Option Candidate)
  /-- Whether a key may start here. -/
  keyAllowed : Bool
  /-- The tokens in reverse. -/
  tokens : List Token
  count : Nat

/-- The result of a reader that fails only where a text is malformed. -/
def wellFormed {α : Type} : Option α → Except Failure α
  | some a => .ok a
  | none => .error .malformed

/-- Reads a quoted scalar from its opening quote on. -/
def readScalar (double : Bool) (c : Cursor) : Except Failure (Token × Cursor) :=
  (readQuoted double [] c.next).map fun (text, behind) => (.scalar false text, behind)

namespace Scan

def inFlow (s : Scan) : Bool := !s.outer.isEmpty

/-- The first column to the right of the innermost block collection. -/
def margin (s : Scan) : Nat :=
  match s.columns with
  | [] => 0
  | column :: _ => column + 1

def push (token : Token) (s : Scan) : Scan :=
  { s with tokens := token :: s.tokens, count := s.count + 1 }

/-- Closes the block collections from a column on; flow collections pay no regard to columns. -/
def closeBlocks (margin : Nat) (s : Scan) : Scan :=
  if s.inFlow then s
  else
    let closed := (s.columns.takeWhile (margin ≤ ·)).length
    { s with
      columns := s.columns.drop closed
      tokens := List.replicate closed .blockEnd ++ s.tokens
      count := s.count + closed }

/-- Opens a block collection at the cursor unless one is open there. -/
def openBlock (token : Token) (s : Scan) : Scan :=
  if s.inFlow || s.cursor.column < s.margin then s
  else { s.push token with columns := s.cursor.column :: s.columns }

/-- Gives up the candidate, which must not be required. -/
def forget (s : Scan) : Except Failure Scan :=
  if s.candidate.any (·.required) then .error .malformed else .ok { s with candidate := none }

/-- Gives up all candidates that are out of reach. -/
def forgetStale (s : Scan) : Except Failure Scan :=
  let isStale := Candidate.isStale s.cursor
  if (s.candidate :: s.outer).any (·.any fun c => c.required && isStale c) then .error .malformed
  else
    let reachable (candidate : Option Candidate) := candidate.filter (!isStale ·)
    .ok { s with candidate := reachable s.candidate, outer := s.outer.map reachable }

/-- Makes the next token a candidate if a key may start here. -/
def propose (s : Scan) : Except Failure Scan :=
  if s.keyAllowed then do
    let s ← s.forget
    let c := s.cursor
    let required := !s.inFlow && s.columns.head? = some c.column
    return { s with candidate := some ⟨s.count, required, c.offset, c.line, c.column⟩ }
  else .ok s

/-- Adds the token that a reader finds at the cursor. A key may start with it, but not behind it. -/
def addContent (read : Cursor → Except Failure (Token × Cursor)) (s : Scan) :
    Except Failure Scan := do
  let s ← s.propose
  let (token, behind) ← read s.cursor
  return { s.push token with cursor := behind, keyAllowed := false }

/-- Adds a token behind which a key may start, or not, and which is no part of a key. -/
def addMark (token : Token) (keyAllowed : Bool) (behind : Cursor) (s : Scan) :
    Except Failure Scan := do
  let s ← s.forget
  return { s.push token with cursor := behind, keyAllowed }

def openFlow (token : Token) (s : Scan) : Except Failure Scan := do
  let s ← s.propose
  return { s.push token with
    cursor := s.cursor.next
    candidate := none
    outer := s.candidate :: s.outer
    keyAllowed := true }

def closeFlow (token : Token) (s : Scan) : Except Failure Scan := do
  match s.outer with
  | [] => throw .malformed
  | candidate :: outer =>
      let s ← s.addMark token false s.cursor.next
      return { s with candidate, outer }

/-- Adds a mark for an item or a key of a block collection, which may start only where a key may.
The mark may also stand in a flow collection. -/
def addItem (collection token : Token) (keyAllowed : Bool) (s : Scan) : Except Failure Scan :=
  if s.inFlow || s.keyAllowed then
    (s.openBlock collection).addMark token keyAllowed s.cursor.next
  else .error .malformed

/-- Puts the mark of a key in front of the candidate, and the start of a mapping if none is open at
its column. -/
def insertKey (candidate : Candidate) (s : Scan) : Scan :=
  let opens := !s.inFlow && s.margin ≤ candidate.column
  let marks : List Token := if opens then [.key, .blockMappingStart] else [.key]
  let later := s.count - candidate.index
  { s with
    candidate := none
    columns := if opens then candidate.column :: s.columns else s.columns
    tokens := s.tokens.take later ++ marks ++ s.tokens.drop later
    count := s.count + marks.length }

def addValue (s : Scan) : Except Failure Scan :=
  match s.candidate with
  | some candidate => (s.insertKey candidate).addMark .value false s.cursor.next
  | none => s.addItem .blockMappingStart .value (!s.inFlow)

/-- Adds a plain scalar, which no indicator and no tab may start. A key may follow on a new line. -/
def addPlain (first : Char) (s : Scan) : Except Failure Scan :=
  if first = '\t' || ",[]\x7b\x7d#&*!|>'\"%@\x60".contains first then .error .malformed
  else do
    let s ← s.propose
    let scalar := readPlain s.inFlow s.margin [] ⟨[], s.cursor, false⟩
    return { s.push (.scalar true (String.ofList scalar.read.reverse)) with
      cursor := scalar.cursor, keyAllowed := scalar.broken }

def addBlockScalar (folded : Bool) (s : Scan) : Except Failure Scan :=
  match readBlock folded s.margin s.cursor.next with
  | none => .error .malformed
  | some (text, behind) => s.addMark (.scalar false text) true behind

def addDirective (s : Scan) : Except Failure Scan := do
  let s ← (s.closeBlocks 0).forget
  let (token, behind) ← readDirective s.cursor.next
  return { s.push token with cursor := behind, keyAllowed := false }

/-- Adds the token that starts with `first` at the cursor. -/
def addToken (first : Char) (s : Scan) : Except Failure Scan :=
  let c := s.cursor
  let ends := endsWord c.next.peek
  if c.column = 0 && first == '%' then s.addDirective
  else if c.column = 0 && startsSeparator c.rest then
    let token : Token := if first = '-' then .documentStart else .documentEnd
    (s.closeBlocks 0).addMark token false (c.advance 3)
  else match first with
    | '[' => s.openFlow .flowSequenceStart
    | '{' => s.openFlow .flowMappingStart
    | ']' => s.closeFlow .flowSequenceEnd
    | '}' => s.closeFlow .flowMappingEnd
    | ',' => s.addMark .flowEntry true c.next
    | '-' => if ends then s.addItem .blockSequenceStart .blockEntry true else s.addPlain first
    | '?' =>
        if s.inFlow || ends then s.addItem .blockMappingStart .key (!s.inFlow)
        else s.addPlain first
    | ':' => if s.inFlow || ends then s.addValue else s.addPlain first
    | '*' => s.addContent fun c => wellFormed (readAnchor .reference c.next)
    | '&' => s.addContent fun c => wellFormed (readAnchor .anchor c.next)
    | '!' => s.addContent fun c => wellFormed (readTag c)
    | '\'' => s.addContent (readScalar false)
    | '"' => s.addContent (readScalar true)
    | '|' => if s.inFlow then .error .malformed else s.addBlockScalar false
    | '>' => if s.inFlow then .error .malformed else s.addBlockScalar true
    | _ => s.addPlain first

end Scan

/-- The cursor in front of the next token, and whether a line end is passed on the way. -/
def toToken (passed : Bool) (c : Cursor) : Cursor × Bool :=
  let next := c.skipSpaces.skipComment
  match _here : next.rest with
  | [] => (next, passed)
  | first :: _ => if isBreak first then toToken true next.next else (next, passed)
termination_by c.rest.length
decreasing_by
  have comment := c.skipSpaces.length_skipComment_le
  have spaces : c.skipSpaces.rest.length ≤ c.rest.length := c.length_skip_le _
  have nonempty : 0 < c.skipSpaces.skipComment.rest.length := by simp [next, _here]
  simp only [Cursor.rest_next, List.length_drop]
  omega

/-- The cursor moved in front of the next token, with the block collections to its right closed. -/
def Scan.approach (s : Scan) : Except Failure Scan := do
  let (cursor, broken) := toToken false s.cursor
  let s := { s with cursor, keyAllowed := s.keyAllowed || (broken && !s.inFlow) }
  return (← s.forgetStale).closeBlocks (cursor.column + 1)

/-- The tokens for which it is known whether they start a key, with `last` behind them. -/
def Scan.settled (last : Token) (s : Scan) : List Token :=
  let reachable := (s.candidate :: s.outer).filterMap (·.filter (!Candidate.isStale s.cursor ·))
  let known := reachable.foldl (fun known candidate => min known candidate.index) s.count
  s.tokens.reverse.take known ++ [last]

/-- Reads all tokens of a text that is well formed, as far as it can be read. Every step takes a
character, so that `steps` may be the number of characters. -/
def Scan.run (s : Scan) : Nat → Option (List Token)
  | 0 => none
  | steps + 1 =>
      match s.approach with
      | .error _ => none
      | .ok ready =>
          match ready.cursor.peek with
          | none => (ready.closeBlocks 0).forget.toOption.map (·.tokens.reverse)
          | some first =>
              match ready.addToken first with
              | .ok next => next.run steps
              | .error .malformed => none
              | .error (.badScalar problem) => some (s.settled (.unreadable problem))

/-- The tokens of a text. A byte order mark in front is no part of it. -/
def tokens? (text : String) : Option (List Token) :=
  let cs := text.toList
  if cs.all isPrintable then
    let start : Cursor := ⟨cs, 0, 0, 0⟩
    let cursor := if start.peek = some '\ufeff' then start.next else start
    Scan.run ⟨cursor, [], none, [], true, [], 0⟩ (cs.length + 1)
  else none

end RamlTypes.Yaml
