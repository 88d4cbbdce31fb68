/-!
# Places in a YAML text

A cursor stands in front of the characters of a text that are not read yet, and knows their line and
column. The line ends of a text are line feeds, or one of the three other line ends of Unicode.
-/

namespace RamlTypes.Yaml

/-- The characters that a text may hold at all. -/
def isPrintable (c : Char) : Bool :=
  let n := c.toNat
  n == 0x09 || n == 0x0A || n == 0x0D || (0x20 ≤ n && n ≤ 0x7E) || n == 0x85 ||
    (0xA0 ≤ n && n ≤ 0xFFFD) || 0x10000 ≤ n

def isBreak (c : Char) : Bool := c == '\n' || c == '\u0085' || c == '\u2028' || c == '\u2029'

def isBlank (c : Char) : Bool := c == ' ' || c == '\t'

/-- Whether a character, or the end of the text, ends a word. -/
def endsWord (c : Option Char) : Bool := c.all fun c => isBlank c || isBreak c

/-- Whether a character, or the end of the text, ends a name that a tab does not end. -/
def endsName (c : Option Char) : Bool := c.all fun c => c == ' ' || isBreak c

def endsLine (c : Option Char) : Bool := c.all isBreak

/-- What a line end stands for in a scalar. -/
def breakChar (c : Char) : Char := if c = '\u0085' then '\n' else c

/-- Whether a text starts with a mark between documents. -/
def startsSeparator (cs : List Char) : Bool :=
  (['-', '-', '-'].isPrefixOf cs || ['.', '.', '.'].isPrefixOf cs) && endsWord cs[3]?

structure Cursor where
  rest : List Char
  offset : Nat
  line : Nat
  column : Nat

namespace Cursor

def peek (c : Cursor) : Option Char := c.rest.head?

/-- The cursor behind the next character. A byte order mark takes no column. -/
def next (c : Cursor) : Cursor :=
  match c.rest with
  | [] => c
  | first :: rest =>
      if isBreak first then ⟨rest, c.offset + 1, c.line + 1, 0⟩
      else if first = '\ufeff' then ⟨rest, c.offset + 1, c.line, c.column⟩
      else ⟨rest, c.offset + 1, c.line, c.column + 1⟩

/-- The cursor that many characters further on. -/
def advance (c : Cursor) : Nat → Cursor
  | 0 => c
  | count + 1 => c.next.advance count

@[simp] theorem rest_next (c : Cursor) : c.next.rest = c.rest.drop 1 := by
  obtain ⟨rest, offset, line, column⟩ := c
  cases rest with
  | nil => rfl
  | cons first rest =>
      simp only [next, List.drop_succ_cons, List.drop_zero]
      split
      · rfl
      · split <;> rfl

@[simp] theorem rest_advance (c : Cursor) (count : Nat) :
    (c.advance count).rest = c.rest.drop count := by
  induction count generalizing c with
  | zero => rfl
  | succ count ih => simp [advance, ih]

/-- The cursor behind the characters at its place that satisfy a test. -/
def skip (test : Char → Bool) (c : Cursor) : Cursor := c.advance (c.rest.takeWhile test).length

def skipSpaces (c : Cursor) : Cursor := c.skip (· == ' ')

/-- The cursor at the end of its line if a comment starts at its place. -/
def skipComment (c : Cursor) : Cursor :=
  if c.peek = some '#' then c.skip (!isBreak ·) else c

theorem length_skip_le (test : Char → Bool) (c : Cursor) :
    (c.skip test).rest.length ≤ c.rest.length := by
  simp [skip]

theorem length_skipComment_le (c : Cursor) :
    c.skipComment.rest.length ≤ c.rest.length := by
  unfold skipComment
  split
  · exact length_skip_le _ c
  · exact Nat.le_refl _

end Cursor

end RamlTypes.Yaml
