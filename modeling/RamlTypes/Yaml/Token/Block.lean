import RamlTypes.Yaml.Cursor

/-!
# Block scalars

A block scalar has a header, a line of its own, and then lines that all are indented. In literal
style a line end stands for itself. In folded style it stands for a blank, unless one of the lines
around it starts with white space or empty lines follow it.
-/

namespace RamlTypes.Yaml

/-- What a scalar keeps of the line ends behind its last line. -/
inductive Chomping where
  | none
  | first
  | all
deriving DecidableEq, Repr

/-- The signs in the header of a block scalar; `indent` counts from the column around it. -/
structure BlockHeader where
  chomping : Chomping
  indent : Option Nat

def chompingOf? : Char → Option Chomping
  | '-' => some .none
  | '+' => some .all
  | _ => Option.none

def indentOf? (c : Char) : Option Nat :=
  if c.isDigit then some (c.toNat - '0'.toNat) else none

/-- The header at the start of a text and how many characters it takes. Its two signs may come in
either order. -/
def readBlockHeader : List Char → BlockHeader × Nat
  | [] => (⟨.first, none⟩, 0)
  | c :: rest =>
      match chompingOf? c, indentOf? c with
      | some chomping, _ =>
          match rest.head?.bind indentOf? with
          | some indent => (⟨chomping, some indent⟩, 2)
          | none => (⟨chomping, none⟩, 1)
      | none, some indent =>
          match rest.head?.bind chompingOf? with
          | some chomping => (⟨chomping, some indent⟩, 2)
          | none => (⟨.first, some indent⟩, 1)
      | none, none => (⟨.first, none⟩, 0)

/-- The cursor behind the spaces at its place, at column `indent` at most. -/
def Cursor.skipIndent (indent : Nat) (c : Cursor) : Cursor :=
  c.advance (min (c.rest.takeWhile (· == ' ')).length (indent - c.column))

theorem Cursor.length_skipIndent_le (indent : Nat) (c : Cursor) :
    (c.skipIndent indent).rest.length ≤ c.rest.length := by
  simp [skipIndent]

/-- The empty lines in front of a line of a block scalar: what they stand for, and the cursor behind
the indentation of that line. -/
def blockBreaks (indent : Nat) (c : Cursor) : List Char × Cursor :=
  match _here : (c.skipIndent indent).rest with
  | [] => ([], c.skipIndent indent)
  | first :: _ =>
      if isBreak first then
        let (breaks, behind) := blockBreaks indent (c.skipIndent indent).next
        (breakChar first :: breaks, behind)
      else ([], c.skipIndent indent)
termination_by c.rest.length
decreasing_by
  have := c.length_skipIndent_le indent
  simp only [Cursor.rest_next, _here, List.drop_succ_cons, List.drop_zero, List.length_cons] at *
  omega

theorem length_blockBreaks_le (indent : Nat) (c : Cursor) :
    (blockBreaks indent c).2.rest.length ≤ c.rest.length := by
  have skipped := c.length_skipIndent_le indent
  fun_induction blockBreaks indent c with
  | case1 => exact skipped
  | case2 c first rest here _ breaks behind result ih =>
      have := ih ((c.skipIndent indent).next.length_skipIndent_le indent)
      simp only [result, Cursor.rest_next, List.length_drop] at this
      simp only
      omega
  | case3 => exact skipped

/-- The empty lines at the start of a block scalar without an indentation of its own: what they
stand for, the column that the spaces on them or behind them reach, and the cursor behind them.
Before them that column was `reached`. -/
def leadingBreaks (reached : Nat) (c : Cursor) : List Char × Nat × Cursor :=
  match _here : c.rest with
  | [] => ([], reached, c)
  | first :: _ =>
      if first = ' ' then leadingBreaks (max reached c.next.column) c.next
      else if isBreak first then
        let (breaks, reached, behind) := leadingBreaks reached c.next
        (breakChar first :: breaks, reached, behind)
      else ([], reached, c)
termination_by c.rest.length
decreasing_by all_goals simp [_here]

/-- The lines of a block scalar: its characters in reverse, the line end of the last line, the empty
lines behind it and the cursor behind those. -/
structure BlockLines where
  read : List Char
  lastBreak : List Char
  breaks : List Char
  cursor : Cursor

/-- What the line end between two lines stands for. A line is indented further if it starts with a
blank, and `breaks` are the empty lines between the two. -/
def joint (folded : Bool) (lineEnd : Char) (further : Bool) (breaks : List Char) : List Char :=
  if folded && breakChar lineEnd == '\n' && !further then if breaks = [] then [' '] else []
  else [breakChar lineEnd]

/-- Reads the lines from one that starts at column `indent` on; any other line ends the scalar. -/
def readBlockLines (folded : Bool) (indent : Nat) (read breaks : List Char) (c : Cursor) :
    BlockLines :=
  match _here : c.rest with
  | [] => ⟨read, [], breaks, c⟩
  | first :: rest =>
      if c.column = indent then
        let line := (first :: rest).takeWhile (!isBreak ·)
        let read := line.reverse ++ breaks.reverse ++ read
        match (first :: rest).drop line.length with
        | [] => ⟨read, [], [], c.advance line.length⟩
        | lineEnd :: _ =>
            let next := blockBreaks indent (c.advance (line.length + 1))
            if next.2.column = indent && !next.2.rest.isEmpty then
              let further := isBlank first || next.2.peek.any isBlank
              readBlockLines folded indent ((joint folded lineEnd further next.1).reverse ++ read)
                next.1 next.2
            else ⟨read, [breakChar lineEnd], next.1, next.2⟩
      else ⟨read, [], breaks, c⟩
termination_by c.rest.length
decreasing_by
  have nonempty : 0 < c.rest.length := by simp [_here]
  refine Nat.lt_of_le_of_lt (length_blockBreaks_le _ _) ?_
  simp only [Cursor.rest_advance, List.length_drop]
  omega

/-- The cursor behind the rest of a line, which may only hold a comment. -/
def endLine? (c : Cursor) : Option Cursor :=
  let c := c.skipSpaces.skipComment
  if endsLine c.peek then some c.next else none

/-- Reads a block scalar behind its mark. Gives its text and the cursor behind it; the lines have to
start at column `margin` or further right, and further than the first column in any case. -/
def readBlock (folded : Bool) (margin : Nat) (c : Cursor) : Option (String × Cursor) := do
  let (header, taken) := readBlockHeader c.rest
  let c := c.advance taken
  if header.indent = some 0 || !endsName c.peek then none
  else
    let c ← endLine? c
    let (breaks, indent, c) :=
      match header.indent with
      | some indent =>
          let indent := max 1 margin + indent - 1
          let (breaks, c) := blockBreaks indent c
          (breaks, indent, c)
      | none =>
          let (breaks, reached, c) := leadingBreaks 0 c
          (breaks, max (max 1 margin) reached, c)
    let lines := readBlockLines folded indent [] breaks c
    let ending :=
      match header.chomping with
      | .none => []
      | .first => lines.lastBreak
      | .all => lines.lastBreak ++ lines.breaks
    some (String.ofList (lines.read.reverse ++ ending), lines.cursor)

end RamlTypes.Yaml
