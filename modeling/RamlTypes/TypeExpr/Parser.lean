import RamlTypes.Text.Blank
import RamlTypes.Text.Search
import RamlTypes.TypeExpr.Basic

/-!
# Reading type expressions

Every text is a type expression. After the white space and the parentheses around the whole text
are gone, the ends decide: a trailing `[]` makes an array, a trailing map suffix makes a map, and
only then a bar inside makes a union. So `A | B[]` is an array of a union. Reading recurses on
shorter texts only.
-/

namespace RamlTypes.TypeExpr

open Text

/-- Whether the parentheses are balanced at some point before the last character, `depth` being
the number of open ones. -/
def closesEarly (depth : Nat) : List Char → Bool
  | [] => false
  | [_] => false
  | c :: rest =>
      let depth := if c = '(' then depth + 1 else if c = ')' then depth - 1 else depth
      depth == 0 || closesEarly depth rest

/-- Whether the first parenthesis of a text is closed by its last character. -/
def isEnclosed (cs : List Char) : Bool :=
  cs.head? == some '(' && cs.getLast? == some ')' && !closesEarly 0 cs

theorem two_le_length_of_isEnclosed {cs : List Char} (enclosed : isEnclosed cs = true) :
    2 ≤ cs.length := by
  match cs with
  | [] => simp [isEnclosed] at enclosed
  | [c] => 
      simp only [isEnclosed, List.head?_cons, List.getLast?_singleton, Bool.and_eq_true,
        beq_iff_eq, Option.some.injEq] at enclosed
      obtain ⟨⟨rfl, wrong⟩, _⟩ := enclosed
      exact absurd wrong (by decide)
  | _ :: _ :: _ => simp

/-- A text without its first and last character and the white space inside of them. -/
def inner (cs : List Char) : List Char := trim (cs.drop 1).dropLast

theorem length_inner_le (cs : List Char) : (inner cs).length ≤ cs.length - 2 := by
  have := length_trim_le (cs.drop 1).dropLast
  simp only [List.length_dropLast, List.length_drop] at this
  simpa [inner, Nat.sub_sub] using this

/-- Removes parentheses that enclose the whole text, as long as there are any. -/
def stripParens (cs : List Char) : List Char :=
  if isEnclosed cs = true then stripParens (inner cs) else cs
termination_by cs.length
decreasing_by
  rename_i enclosed
  have := two_le_length_of_isEnclosed enclosed
  have := length_inner_le cs
  omega

theorem length_stripParens_le (cs : List Char) : (stripParens cs).length ≤ cs.length := by
  fun_induction stripParens cs with
  | case1 cs _ ih =>
      have := length_inner_le cs
      omega
  | case2 cs _ => exact Nat.le_refl _

/-- A text with nothing around it that does not belong to the expression. -/
def core (cs : List Char) : List Char := stripParens (trim cs)

theorem length_core_le (cs : List Char) : (core cs).length ≤ cs.length :=
  Nat.le_trans (length_stripParens_le _) (length_trim_le cs)

def arraySuffix : List Char := ['[', ']']

def mapSuffix : List Char := ['{', '}']

/-- Whether a text ends with the two characters of a suffix. -/
def hasSuffix (suffix cs : List Char) : Bool := suffix.isSuffixOf cs

/-- A text without the two characters of its suffix. -/
def beforeSuffix (cs : List Char) : List Char := cs.dropLast.dropLast

theorem length_beforeSuffix_lt {cs : List Char}
    (found : hasSuffix arraySuffix cs = true ∨ hasSuffix mapSuffix cs = true) :
    (beforeSuffix cs).length < cs.length := by
  have long : 2 ≤ cs.length := by
    rcases found with ends | ends
    · exact (List.isSuffixOf_iff_suffix.mp ends).length_le
    · exact (List.isSuffixOf_iff_suffix.mp ends).length_le
  simp only [beforeSuffix, List.length_dropLast]
  omega

/-- Removes all array suffixes at the end, and the white space before each of them, and counts
them. -/
def peelArrays (cs : List Char) : List Char × Nat :=
  if _found : hasSuffix arraySuffix cs = true then
    let (element, dimensions) := peelArrays (trimRight (beforeSuffix cs))
    (element, dimensions + 1)
  else (cs, 0)
termination_by cs.length
decreasing_by
  exact Nat.lt_of_le_of_lt (length_trimRight_le _) (length_beforeSuffix_lt (.inl _found))

theorem length_peelArrays_le (cs : List Char) : (peelArrays cs).1.length ≤ cs.length := by
  fun_induction peelArrays cs with
  | case1 cs found element dimensions peeled ih =>
      have := length_beforeSuffix_lt (.inl found)
      have := length_trimRight_le (beforeSuffix cs)
      simp only [peeled] at ih ⊢
      omega
  | case2 cs _ => exact Nat.le_refl _

theorem length_peelArrays_lt {cs : List Char} (found : hasSuffix arraySuffix cs = true) :
    (peelArrays cs).1.length < cs.length := by
  rw [peelArrays, dif_pos found]
  exact Nat.lt_of_le_of_lt (length_peelArrays_le _)
    (Nat.lt_of_le_of_lt (length_trimRight_le _) (length_beforeSuffix_lt (.inl found)))

/-- Whether a character occurs after the first one of a text that does not start with it. -/
def hasInside (c : Char) (cs : List Char) : Bool := cs.head? != some c && cs.contains c

theorem mem_of_hasInside {c : Char} {cs : List Char} (inside : hasInside c cs = true) :
    c ∈ cs := by
  simp only [hasInside, Bool.and_eq_true, List.contains_iff_mem] at inside
  exact inside.2

/-- The pieces between the bars that are not blank. -/
def unionPieces (cs : List Char) : List (List Char) :=
  (splitAt '|' cs).filter fun piece => !isBlankText piece

/-- A name without a bar. The last dot after the first character ends the qualifier. -/
def ofName (cs : List Char) : TypeExpr :=
  if hasInside '.' cs then
    let name := (cs.reverse.takeWhile (· != '.')).reverse
    let qualifier := ((cs.reverse.dropWhile (· != '.')).drop 1).reverse
    .named (String.ofList cs) (String.ofList name) (String.ofList qualifier)
  else .named (String.ofList cs) (String.ofList cs) ""

/-- A union of the given members, unless there is just one. -/
def ofMembers (raw : String) : List TypeExpr → TypeExpr
  | [member] => member
  | members => .union raw members

def parseChars (cs : List Char) : TypeExpr :=
  let text := core cs
  let raw := String.ofList text
  if _array : hasSuffix arraySuffix text = true then
    .array raw (peelArrays text).2 (parseChars (peelArrays text).1)
  else if _map : hasSuffix mapSuffix text = true then
    .map raw (parseChars (beforeSuffix text))
  else if _union : hasInside '|' text = true then
    ofMembers raw ((unionPieces text).attach.map fun ⟨piece, _⟩ => parseChars piece)
  else ofName text
termination_by cs.length
decreasing_by
  · exact Nat.lt_of_lt_of_le (length_peelArrays_lt _array) (length_core_le cs)
  · exact Nat.lt_of_lt_of_le (length_beforeSuffix_lt (.inr _map)) (length_core_le cs)
  · rename_i member
    have := length_lt_of_mem_splitAt (mem_of_hasInside _union) (List.mem_filter.mp member).1
    exact Nat.lt_of_lt_of_le this (length_core_le cs)

/-- The type expression that a text stands for. -/
def parse (raw : String) : TypeExpr := parseChars raw.toList

end RamlTypes.TypeExpr
