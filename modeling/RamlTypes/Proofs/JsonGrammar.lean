import RamlTypes.Proofs.StringLiterals

/-!
# The grammar of JSON texts

A JSON text is a value with space around it. The names of the values that are no texts and no
numbers are `null`, `true` and `false`, and a number is spelled by digits, so there are few letters
outside the strings of a JSON text. In particular none of them is the first letter of an infinity or
of what is not a number.
-/
namespace RamlTypes.Json

/-! ### Pieces -/

/-- Blanks, tabs and line ends. -/
def IsSpace (cs : List Char) : Prop := ∀ c ∈ cs, c ∈ [' ', '\t', '\n', '\r']

/-- The characters that hold the parts of a value together. -/
def marks : List Char := ['[', ']', '{', '}', ':', ',']

/-- One of the marks, with any space around it. -/
def IsMark (mark : Char) (cs : List Char) : Prop :=
  ∃ before after, IsSpace before ∧ IsSpace after ∧ cs = before ++ mark :: after

def IsDigits (cs : List Char) : Prop := cs ≠ [] ∧ ∀ c ∈ cs, c.isDigit = true

/-- A natural number. It does not start with a zero, unless it is zero. -/
def IsWhole (cs : List Char) : Prop := IsDigits cs ∧ (cs.head? = some '0' → cs = ['0'])

def IsFraction (cs : List Char) : Prop := cs = [] ∨ ∃ digits, IsDigits digits ∧ cs = '.' :: digits

def IsExponent (cs : List Char) : Prop :=
  cs = [] ∨ ∃ mark ∈ ['e', 'E'], ∃ sign ∈ [[], ['+'], ['-']], ∃ digits,
    IsDigits digits ∧ cs = mark :: sign ++ digits

/-- A number without a sign. -/
def IsMagnitude (cs : List Char) : Prop :=
  ∃ whole fraction exponent, IsWhole whole ∧ IsFraction fraction ∧ IsExponent exponent ∧
    cs = whole ++ fraction ++ exponent

def IsNumber (cs : List Char) : Prop := IsMagnitude cs ∨ ∃ ds, IsMagnitude ds ∧ cs = '-' :: ds

/-- A character between quotes. The code of an escape may be half of a pair, even if the other half
is not there. -/
inductive IsCharacter : List Char → Prop where
  | plain {c : Char} (plain : isPlain c = true) : IsCharacter [c]
  | short {escape : Char} (listed : escape ∈ ['"', '\\', '/', 'b', 'f', 'n', 'r', 't']) :
      IsCharacter ['\\', escape]
  | code {digits : List Char} (four : digits.length = 4)
      (hex : ∀ c ∈ digits, (Text.hexValue? c).isSome = true) :
      IsCharacter ('\\' :: 'u' :: digits)

def IsString (cs : List Char) : Prop :=
  ∃ pieces : List (List Char), (∀ piece ∈ pieces, IsCharacter piece) ∧
    cs = '"' :: pieces.flatten ++ ['"']

/-! ### Texts -/

/-- What a rule of the grammar is about. -/
inductive Symbol where
  | value
  | member
  /-- One or more, with commas between them. -/
  | several (symbol : Symbol)

inductive Derives : Symbol → List Char → Prop where
  | null : Derives .value "null".toList
  | true : Derives .value "true".toList
  | false : Derives .value "false".toList
  | number {cs : List Char} (number : IsNumber cs) : Derives .value cs
  | string {cs : List Char} (string : IsString cs) : Derives .value cs
  | emptyArray {first last : List Char} (opening : IsMark '[' first) (closing : IsMark ']' last) :
      Derives .value (first ++ last)
  | array {first cs last : List Char} (opening : IsMark '[' first)
      (items : Derives (.several .value) cs) (closing : IsMark ']' last) :
      Derives .value (first ++ cs ++ last)
  | emptyObject {first last : List Char} (opening : IsMark '{' first)
      (closing : IsMark '}' last) : Derives .value (first ++ last)
  | object {first cs last : List Char} (opening : IsMark '{' first)
      (members : Derives (.several .member) cs) (closing : IsMark '}' last) :
      Derives .value (first ++ cs ++ last)
  | member {cs colon ds : List Char} (name : IsString cs) (between : IsMark ':' colon)
      (value : Derives .value ds) : Derives .member (cs ++ colon ++ ds)
  | one {symbol : Symbol} {cs : List Char} (only : Derives symbol cs) : Derives (.several symbol) cs
  | more {symbol : Symbol} {cs comma ds : List Char} (first : Derives symbol cs)
      (between : IsMark ',' comma) (rest : Derives (.several symbol) ds) :
      Derives (.several symbol) (cs ++ comma ++ ds)

/-- A value with any space around it. -/
def IsText (cs : List Char) : Prop :=
  ∃ before value after, IsSpace before ∧ Derives .value value ∧ IsSpace after ∧
    cs = before ++ value ++ after

variable {piece text cs ds : List Char} {c mark : Char} {s : String}

/-! ### Numbers -/

/-- A character that numbers are spelled with. -/
def isNumeral (c : Char) : Bool := c.isDigit || c ∈ ['-', '+', '.', 'e', 'E']

theorem IsDigits.numerals (digits : IsDigits cs) : ∀ c ∈ cs, isNumeral c = true :=
  fun c member => by simp [isNumeral, digits.2 c member]

theorem IsFraction.numerals (fraction : IsFraction cs) : ∀ c ∈ cs, isNumeral c = true := by
  rcases fraction with rfl | ⟨digits, good, rfl⟩
  · simp
  · exact List.forall_mem_cons.mpr ⟨by simp [isNumeral], good.numerals⟩

theorem IsExponent.numerals (exponent : IsExponent cs) : ∀ c ∈ cs, isNumeral c = true := by
  rcases exponent with rfl | ⟨mark, known, sign, known', digits, good, rfl⟩
  · simp
  · refine List.forall_mem_append.mpr ⟨?_, good.numerals⟩
    revert mark sign
    simp [isNumeral]

theorem IsMagnitude.numerals (magnitude : IsMagnitude cs) : ∀ c ∈ cs, isNumeral c = true := by
  obtain ⟨whole, fraction, exponent, good, good', good'', rfl⟩ := magnitude
  exact List.forall_mem_append.mpr
    ⟨List.forall_mem_append.mpr ⟨good.1.numerals, good'.numerals⟩, good''.numerals⟩

theorem IsNumber.numerals (number : IsNumber cs) : ∀ c ∈ cs, isNumeral c = true := by
  rcases number with magnitude | ⟨ds, magnitude, rfl⟩
  · exact magnitude.numerals
  · exact List.forall_mem_cons.mpr ⟨by simp [isNumeral], magnitude.numerals⟩

/-! ### Strings -/

theorem hexValue?_isSome_of_hexQuad? {code : Nat} (four : cs.length = 4)
    (value : hexQuad? cs = some code) : ∀ c ∈ cs, (Text.hexValue? c).isSome = true := by
  obtain ⟨a, b, c, d, rfl⟩ : ∃ a b c d, cs = [a, b, c, d] := List.length_eq_four.mp four
  simp only [hexQuad?, Option.bind_eq_bind, Option.bind_eq_some_iff] at value
  obtain ⟨_, first, _, second, _, third, _, fourth, _⟩ := value
  simp [first, second, third, fourth]

/-- What stands for a character is one, or two halves of one. -/
theorem StandsFor.isCharacters (stands : StandsFor piece c) :
    ∃ pieces : List (List Char), (∀ p ∈ pieces, IsCharacter p) ∧ piece = pieces.flatten := by
  cases stands with
  | plain plain => exact ⟨[_], by simpa using .plain plain, by simp⟩
  | @short escape _ listed =>
    have known : escape ∈ simpleEscapes.map Prod.fst := List.mem_map.mpr ⟨_, listed, rfl⟩
    exact ⟨[_], by simpa using .short known, by simp⟩
  | code four value =>
    exact ⟨[_], by simpa using .code four (hexValue?_isSome_of_hexQuad? four value), by simp⟩
  | @pair digits digits' _ _ four value _ four' value' _ =>
    -- Both halves are characters on their own, as the grammar asks for no pairs.
    have half := IsCharacter.code four (hexValue?_isSome_of_hexQuad? four value)
    have half' := IsCharacter.code four' (hexValue?_isSome_of_hexQuad? four' value')
    exact ⟨['\\' :: 'u' :: digits, '\\' :: 'u' :: digits'], by simpa using ⟨half, half'⟩, by simp⟩

theorem Spells.isCharacters (spelled : Spells text cs) :
    ∃ pieces : List (List Char), (∀ p ∈ pieces, IsCharacter p) ∧ text = pieces.flatten := by
  induction spelled with
  | nil => exact ⟨[], by simp, rfl⟩
  | cons first _ ih =>
    obtain ⟨here, good, rfl⟩ := first.isCharacters
    obtain ⟨behind, good', rfl⟩ := ih
    exact ⟨here ++ behind, List.forall_mem_append.mpr ⟨good, good'⟩, by simp⟩

/-- A literal that denotes a string is one of the grammar. -/
theorem Denotes.isString {literal : String} (denotes : Denotes literal s) :
    IsString literal.toList := by
  obtain ⟨text, quoted, spelled⟩ := denotes
  obtain ⟨pieces, good, rfl⟩ := spelled.isCharacters
  exact ⟨pieces, good, quoted⟩

theorem isString_writeString (s : String) : IsString (writeString s) := by
  have string := (denotes_writeString s).isString
  rwa [String.toList_ofList] at string

/-! ### Outside of strings -/

/-- Where a character stands: outside of all strings, inside of one, or there behind a backslash. -/
inductive Place where
  | outside
  | inside
  | escaped

def bareFrom : Place → List Char → List Char
  | _, [] => []
  | .outside, c :: cs => if c = '"' then bareFrom .inside cs else c :: bareFrom .outside cs
  | .inside, c :: cs =>
      if c = '"' then bareFrom .outside cs
      else if c = '\\' then bareFrom .escaped cs else bareFrom .inside cs
  | .escaped, _ :: cs => bareFrom .inside cs

/-- The characters outside of all strings, without the quotes. -/
def bare (cs : List Char) : List Char := bareFrom .outside cs

/-- Every string that is opened is closed. -/
def IsClosed (cs : List Char) : Prop := ∀ rest, bare (cs ++ rest) = bare cs ++ bare rest

theorem IsClosed.append (closed : IsClosed cs) (closed' : IsClosed ds) : IsClosed (cs ++ ds) := by
  intro rest
  rw [List.append_assoc, closed, closed', closed ds, List.append_assoc]

theorem bare_append_of_unquoted (unquoted : '"' ∉ cs) (rest : List Char) :
    bare (cs ++ rest) = cs ++ bare rest := by
  induction cs with
  | nil => rfl
  | cons c cs ih =>
    rw [List.mem_cons, not_or] at unquoted
    have ordinary : c ≠ '"' := fun quote => unquoted.1 quote.symm
    have behind : bareFrom .outside (cs ++ rest) = cs ++ bare rest := ih unquoted.2
    rw [List.cons_append, bare, bareFrom, if_neg ordinary, behind, List.cons_append]

theorem bare_of_unquoted (unquoted : '"' ∉ cs) : bare cs = cs := by
  simpa [bare, bareFrom] using bare_append_of_unquoted unquoted []

theorem isClosed_of_unquoted (unquoted : '"' ∉ cs) : IsClosed cs := by
  intro rest
  rw [bare_append_of_unquoted unquoted, bare_of_unquoted unquoted]

theorem bareFrom_inside_of_plain (plain : ∀ c ∈ cs, isPlain c = true) (rest : List Char) :
    bareFrom .inside (cs ++ rest) = bareFrom .inside rest := by
  induction cs with
  | nil => rfl
  | cons c cs ih =>
    obtain ⟨here, behind⟩ := List.forall_mem_cons.mp plain
    simp only [isPlain, Bool.and_eq_true, decide_eq_true_eq] at here
    rw [List.cons_append, bareFrom, if_neg here.1.1, if_neg here.1.2, ih behind]

theorem isPlain_of_hexValue? (hex : (Text.hexValue? c).isSome = true) : isPlain c = true := by
  simp only [isPlain, Bool.and_eq_true, decide_eq_true_eq]
  refine ⟨⟨?_, ?_⟩, ?_⟩
  · rintro rfl
    cases hex
  · rintro rfl
    cases hex
  · by_contra small
    have value : Text.hexValue? c = none := by
      simp only [Text.hexValue?]
      split_ifs <;> first | omega | rfl
    rw [value] at hex
    cases hex

theorem IsCharacter.bareFrom_inside (character : IsCharacter piece) (rest : List Char) :
    bareFrom .inside (piece ++ rest) = bareFrom .inside rest := by
  -- A backslash takes one more character with it, so a quote behind it closes nothing.
  cases character with
  | plain plain => exact bareFrom_inside_of_plain (by simpa using plain) rest
  | short => simp [bareFrom]
  | code _ hex =>
    have digits :=
      bareFrom_inside_of_plain (fun c member => isPlain_of_hexValue? (hex c member)) rest
    simpa [bareFrom] using digits

theorem IsString.bare_append (string : IsString cs) (rest : List Char) :
    bare (cs ++ rest) = bare rest := by
  obtain ⟨pieces, good, rfl⟩ := string
  have inner : bareFrom .inside (pieces.flatten ++ '"' :: rest) = bare rest := by
    induction pieces with
    | nil => simp [bareFrom, bare]
    | cons first pieces ih =>
      obtain ⟨here, behind⟩ := List.forall_mem_cons.mp good
      rw [List.flatten_cons, List.append_assoc, here.bareFrom_inside, ih behind]
  simpa [bare, bareFrom] using inner

theorem IsString.bare_eq_nil (string : IsString cs) : bare cs = [] := by
  simpa [bare, bareFrom] using string.bare_append []

theorem IsString.isClosed (string : IsString cs) : IsClosed cs := by
  intro rest
  rw [string.bare_append, string.bare_eq_nil, List.nil_append]

/-! ### Letters -/

/-- The first letters of an infinity and of what is not a number. -/
def isOdd (c : Char) : Bool := c = 'I' || c = 'N'

/-- All strings are closed, and there is no odd letter outside of them. -/
structure IsOrdinary (cs : List Char) : Prop where
  closed : IsClosed cs
  letters : ∀ c ∈ bare cs, isOdd c = false

/-- An odd letter stands outside of all strings. -/
def HasOdd (cs : List Char) : Prop := ∃ c ∈ bare cs, isOdd c = true

theorem IsOrdinary.append (ordinary : IsOrdinary cs) (ordinary' : IsOrdinary ds) :
    IsOrdinary (cs ++ ds) := by
  refine ⟨ordinary.closed.append ordinary'.closed, ?_⟩
  rw [ordinary.closed ds]
  exact List.forall_mem_append.mpr ⟨ordinary.letters, ordinary'.letters⟩

theorem isOrdinary_of_unquoted (letters : ∀ c ∈ cs, c ∉ ['"', 'I', 'N']) : IsOrdinary cs := by
  have unquoted : '"' ∉ cs := fun quote => letters _ quote (by simp)
  refine ⟨isClosed_of_unquoted unquoted, ?_⟩
  rw [bare_of_unquoted unquoted]
  intro c member
  have other := letters c member
  simp only [List.mem_cons, not_or] at other
  simp [isOdd, other]

theorem IsSpace.isOrdinary (space : IsSpace cs) : IsOrdinary cs := by
  have blank : ∀ c ∈ [' ', '\t', '\n', '\r'], c ∉ ['"', 'I', 'N'] := by simp
  exact isOrdinary_of_unquoted fun c member => blank c (space c member)

theorem IsMark.isOrdinary (known : mark ∈ marks) (marked : IsMark mark cs) : IsOrdinary cs := by
  obtain ⟨before, after, space, space', rfl⟩ := marked
  have unquoted : ∀ mark ∈ marks, mark ∉ ['"', 'I', 'N'] := by simp [marks]
  have ordinary : IsOrdinary [mark] := isOrdinary_of_unquoted (by simpa using unquoted mark known)
  rw [List.append_cons]
  exact (space.isOrdinary.append ordinary).append space'.isOrdinary

theorem IsString.isOrdinary (string : IsString cs) : IsOrdinary cs :=
  ⟨string.isClosed, by simp [string.bare_eq_nil]⟩

theorem IsNumber.isOrdinary (number : IsNumber cs) : IsOrdinary cs := by
  have other : ∀ c ∈ ['"', 'I', 'N'], isNumeral c = false := by simp [isNumeral]
  refine isOrdinary_of_unquoted fun c member odd => ?_
  have numeral := number.numerals c member
  rw [other c odd] at numeral
  cases numeral

theorem Derives.isOrdinary {symbol : Symbol} (derives : Derives symbol cs) : IsOrdinary cs := by
  -- Numbers, names and marks have no odd letters, and in strings they do not count.
  induction derives with
  | null | true | false => exact isOrdinary_of_unquoted (by simp)
  | number number => exact number.isOrdinary
  | string string => exact string.isOrdinary
  | emptyArray opening closing | emptyObject opening closing =>
    exact (opening.isOrdinary (by simp [marks])).append (closing.isOrdinary (by simp [marks]))
  | array opening _ closing ih | object opening _ closing ih =>
    exact ((opening.isOrdinary (by simp [marks])).append ih).append
      (closing.isOrdinary (by simp [marks]))
  | member name between _ ih =>
    exact (name.isOrdinary.append (between.isOrdinary (by simp [marks]))).append ih
  | one _ ih => exact ih
  | more _ between _ ih ih' => exact (ih.append (between.isOrdinary (by simp [marks]))).append ih'

theorem IsText.isOrdinary (text : IsText cs) : IsOrdinary cs := by
  obtain ⟨before, value, after, space, derives, space', rfl⟩ := text
  exact (space.isOrdinary.append derives.isOrdinary).append space'.isOrdinary

theorem HasOdd.append_right (odd : HasOdd cs) (closed : IsClosed cs) (ds : List Char) :
    HasOdd (cs ++ ds) := by
  obtain ⟨c, member, letter⟩ := odd
  exact ⟨c, closed ds ▸ List.mem_append_left _ member, letter⟩

theorem HasOdd.append_left (odd : HasOdd ds) (closed : IsClosed cs) : HasOdd (cs ++ ds) := by
  obtain ⟨c, member, letter⟩ := odd
  exact ⟨c, closed ds ▸ List.mem_append_right _ member, letter⟩

/-- A text with an odd letter outside of its strings is no JSON text. -/
theorem HasOdd.not_isText (odd : HasOdd cs) : ¬ IsText cs := by
  intro text
  obtain ⟨c, member, letter⟩ := odd
  rw [text.isOrdinary.letters c member] at letter
  cases letter

end RamlTypes.Json
