import RamlTypes.Yaml.Cursor

/-!
# Plain scalars

A plain scalar has no quotes. It runs over line ends as long as the next line is indented enough,
and ends before a comment, a colon with white space behind it or, inside of flow collections, a
character that separates their items.
-/

namespace RamlTypes.Yaml

/-- Whether a plain scalar ends before `c`, with `following` behind it. -/
def endsPlain (flow : Bool) (c : Char) (following : Option Char) : Bool :=
  isBlank c || isBreak c ||
    (c == ':' && (endsWord following || (flow && following.any (",[]\x7b\x7d".contains ·)))) ||
    (flow && ",?[]\x7b\x7d".contains c)

/-- The part of a plain scalar without white space at the start of a text. -/
def plainRun (flow : Bool) : List Char → List Char
  | [] => []
  | c :: rest => if endsPlain flow c rest.head? then [] else c :: plainRun flow rest

/-- White space between two parts of a plain scalar. -/
structure Gap where
  /-- What it stands for. -/
  text : List Char
  /-- How many characters it takes. -/
  taken : Nat
  /-- Whether it holds a line end. -/
  broken : Bool

/-- The line ends and blanks behind a line end: what they stand for, how many characters they take,
and whether a mark between documents ends them. -/
def gapLines (lineStart : Bool) : List Char → List Char × Nat × Bool
  | [] => ([], 0, false)
  | c :: rest =>
      if lineStart && startsSeparator (c :: rest) then ([], 0, true)
      else if c = ' ' then
        let (breaks, taken, separated) := gapLines false rest
        (breaks, taken + 1, separated)
      else if isBreak c then
        let (breaks, taken, separated) := gapLines true rest
        (breakChar c :: breaks, taken + 1, separated)
      else ([], 0, false)

/-- The white space at the start of a text. Behind the last part of a scalar it stands for
nothing. -/
def plainGap (cs : List Char) : Gap :=
  let spaces := cs.takeWhile (· == ' ')
  match cs.drop spaces.length with
  | [] => ⟨spaces, spaces.length, false⟩
  | c :: rest =>
      if isBreak c then
        let (breaks, taken, separated) := gapLines true rest
        let first := if breakChar c ≠ '\n' then [c] else if breaks = [] then [' '] else []
        ⟨if separated then [] else first ++ breaks, spaces.length + 1 + taken, true⟩
      else ⟨spaces, spaces.length, false⟩

/-- A plain scalar as far as it is read: its characters in reverse, the cursor behind it and the
white space that follows, and whether that white space holds a line end. -/
structure PlainScalar where
  read : List Char
  cursor : Cursor
  broken : Bool

/-- Reads on in a plain scalar behind the white space `gap`. Outside of flow collections its lines
start at column `margin` or further right. -/
def readPlain (flow : Bool) (margin : Nat) (gap : List Char) (scalar : PlainScalar) :
    PlainScalar :=
  if scalar.cursor.peek = some '#' then scalar
  else
    match _run : plainRun flow scalar.cursor.rest with
    | [] => scalar
    | first :: run =>
        let space := plainGap (scalar.cursor.rest.drop (run.length + 1))
        let behind := scalar.cursor.advance (run.length + 1 + space.taken)
        let longer : PlainScalar :=
          ⟨(first :: run).reverse ++ gap.reverse ++ scalar.read, behind, space.broken⟩
        if space.text.isEmpty || behind.peek = some '#' || (!flow && behind.column < margin) then
          longer
        else readPlain flow margin space.text longer
termination_by scalar.cursor.rest.length
decreasing_by
  have nonempty : 0 < scalar.cursor.rest.length := by
    cases here : scalar.cursor.rest with
    | nil => rw [here] at _run; cases _run
    | cons _ _ => simp
  simp only [Cursor.rest_advance, List.length_drop]
  omega

end RamlTypes.Yaml
