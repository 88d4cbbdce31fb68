import RamlTypes.Json.Token
import RamlTypes.Json.Writer
import RamlTypes.Proofs.EnumMembers

/-!
# String literals

Between the quotes of a string literal a character stands for itself, unless it is a quote, a
backslash or a control character. Those can only be spelled by an escape, which is longer than the
character it stands for. So every string has a literal, but the string between two quotes is a
literal of itself only where no character of it needs an escape. The literals of an enum are made in
this way: they denote the texts of their members as long as these texts are plain.
-/
namespace RamlTypes

namespace Json

/-! ### Spelling -/

/-- A character that stands for itself between quotes. -/
def isPlain (c : Char) : Bool := c ≠ '"' && c ≠ '\\' && 0x20 ≤ c.toNat

/-- Half of a pair of escapes, which is no character alone. -/
def isSurrogate (code : Nat) : Bool := isHighSurrogate code || isLowSurrogate code

/-- A piece of the text between quotes that stands for one character. -/
inductive StandsFor : List Char → Char → Prop where
  | plain {c : Char} (plain : isPlain c = true) : StandsFor [c] c
  | short {escape c : Char} (listed : (escape, c) ∈ simpleEscapes) : StandsFor ['\\', escape] c
  | code {digits : List Char} {code : Nat} (four : digits.length = 4)
      (value : hexQuad? digits = some code) (whole : isSurrogate code = false) :
      StandsFor ('\\' :: 'u' :: digits) (Char.ofNat code)
  | pair {digits digits' : List Char} {high low : Nat} (four : digits.length = 4)
      (value : hexQuad? digits = some high) (first : isHighSurrogate high = true)
      (four' : digits'.length = 4) (value' : hexQuad? digits' = some low)
      (second : isLowSurrogate low = true) :
      StandsFor ('\\' :: 'u' :: digits ++ '\\' :: 'u' :: digits')
        (Char.ofNat (0x10000 + (high - 0xD800) * 0x400 + (low - 0xDC00)))

/-- The text between quotes spells the characters, piece by piece. -/
inductive Spells : List Char → List Char → Prop where
  | nil : Spells [] []
  | cons {piece text cs : List Char} {c : Char} (first : StandsFor piece c)
      (rest : Spells text cs) : Spells (piece ++ text) (c :: cs)

/-- A well-formed string literal and the string that it denotes. -/
def Denotes (literal s : String) : Prop :=
  ∃ text, literal.toList = '"' :: text ++ ['"'] ∧ Spells text s.toList

/-- No character of the string needs an escape. -/
def IsPlain (s : String) : Prop := ∀ c ∈ s.toList, isPlain c = true

variable {piece text cs ds : List Char} {c : Char} {s t : String}

/-- A piece is a plain character, or it starts with a backslash and is longer. -/
theorem StandsFor.cases_plain (stands : StandsFor piece c) :
    piece = [c] ∧ isPlain c = true ∨ '\\' ∈ piece ∧ 2 ≤ piece.length := by
  cases stands with
  | plain plain => exact .inl ⟨rfl, plain⟩
  | short | code | pair => exact .inr ⟨by simp, by simp⟩

theorem Spells.length_le (spelled : Spells text cs) : cs.length ≤ text.length := by
  induction spelled with
  | nil => exact Nat.le_refl _
  | cons first _ ih =>
    rcases first.cases_plain with ⟨rfl, _⟩ | ⟨_, long⟩
    · simpa using ih
    · simp only [List.length_cons, List.length_append]
      omega

/-- Where a text is no longer than what it spells, there is no escape in it. -/
theorem Spells.plain_of_length_le (spelled : Spells text cs) (short : text.length ≤ cs.length) :
    ∀ c ∈ cs, isPlain c = true := by
  induction spelled with
  | nil => simp
  | @cons piece text cs c first rest ih =>
    -- An escape cannot be made up for, since no piece is shorter than its character.
    have longer := rest.length_le
    simp only [List.length_append, List.length_cons] at short
    rcases first.cases_plain with ⟨rfl, plain⟩ | ⟨_, long⟩
    · simp only [List.length_singleton] at short
      exact List.forall_mem_cons.mpr ⟨plain, ih (by omega)⟩
    · omega

theorem spells_of_plain (plain : ∀ c ∈ cs, isPlain c = true) : Spells cs cs := by
  induction cs with
  | nil => exact .nil
  | cons c cs ih =>
    obtain ⟨first, rest⟩ := List.forall_mem_cons.mp plain
    exact .cons (.plain first) (ih rest)

/-- A plain text spells nothing but itself. -/
theorem Spells.eq_of_plain (spelled : Spells text cs) (plain : ∀ c ∈ text, isPlain c = true) :
    text = cs := by
  induction spelled with
  | nil => rfl
  | cons first _ ih =>
    obtain ⟨here, behind⟩ := List.forall_mem_append.mp plain
    rcases first.cases_plain with ⟨rfl, _⟩ | ⟨escaped, _⟩
    · rw [ih behind, List.singleton_append]
    · exact absurd (here _ escaped) (by decide)

/-- A text spells itself exactly when it is plain. -/
theorem spells_self_iff : Spells cs cs ↔ ∀ c ∈ cs, isPlain c = true :=
  ⟨fun spelled => spelled.plain_of_length_le (Nat.le_refl _), spells_of_plain⟩

theorem denotes_quotes_iff : Denotes ("\"" ++ s ++ "\"") t ↔ Spells s.toList t.toList := by
  constructor
  · rintro ⟨text, same, spelled⟩
    simp only [String.toList_append, String.reduceToList, List.cons_append, List.nil_append,
      List.cons.injEq, true_and, List.append_cancel_right_eq] at same
    rwa [same]
  · exact fun spelled => ⟨s.toList, by simp, spelled⟩

/-- A plain string between quotes denotes itself and nothing else. -/
theorem denotes_quotes_of_plain (plain : IsPlain s) : Denotes ("\"" ++ s ++ "\"") t ↔ t = s := by
  rw [denotes_quotes_iff]
  constructor
  · exact fun spelled => String.toList_injective (spelled.eq_of_plain plain).symm
  · rintro rfl
    exact spells_of_plain plain

/-- A string between quotes denotes itself exactly when it is plain. -/
theorem denotes_quotes_self_iff : Denotes ("\"" ++ s ++ "\"") s ↔ IsPlain s := by
  rw [denotes_quotes_iff, spells_self_iff, IsPlain]

/-! ### Written strings -/

/-- Four digits are read as the number that they were written for. -/
theorem hexQuad?_hex {n : Nat} (small : n < 0x10000) : hexQuad? (Text.hex 4 n) = some n := by
  have digit : ∀ m, Text.hexValue? (Text.hexDigit (m % 16)) = some (m % 16) :=
    fun m => Text.hexValue?_hexDigit _ (Nat.mod_lt m (by decide))
  simp only [Text.hex, List.nil_append, List.cons_append, hexQuad?, digit, Option.bind_eq_bind,
    Option.bind_some, Option.pure_def, Option.some.injEq]
  omega

/-- The code of a character is not half of a pair. -/
theorem isSurrogate_toNat (c : Char) : isSurrogate c.toNat = false := by
  have valid : c.toNat < 0xD800 ∨ 0xDFFF < c.toNat ∧ c.toNat < 0x110000 := c.valid
  simp only [isSurrogate, isHighSurrogate, isLowSurrogate, Bool.or_eq_false_iff,
    Bool.and_eq_false_iff, decide_eq_false_iff_not]
  omega

theorem standsFor_unicodeEscape {c : Char} (small : c.toNat < 0x10000) :
    StandsFor (unicodeEscape c.toNat) c := by
  have stands := StandsFor.code (Text.length_hex 4 c.toNat) (hexQuad?_hex small)
    (isSurrogate_toNat c)
  rwa [Char.ofNat_toNat] at stands

/-- A character with a code of more than four digits is written as a pair. -/
theorem standsFor_surrogates {c : Char} (large : 0x10000 ≤ c.toNat) :
    StandsFor (unicodeEscape (0xD800 + (c.toNat - 0x10000) / 0x400) ++
      unicodeEscape (0xDC00 + (c.toNat - 0x10000) % 0x400)) c := by
  have bound : c.toNat < 0x110000 := by
    have valid : c.toNat < 0xD800 ∨ 0xDFFF < c.toNat ∧ c.toNat < 0x110000 := c.valid
    omega
  have stands := StandsFor.pair (Text.length_hex 4 _)
    (hexQuad?_hex (n := 0xD800 + (c.toNat - 0x10000) / 0x400) (by omega))
    (by simp only [isHighSurrogate, Bool.and_eq_true, decide_eq_true_eq]; omega)
    (Text.length_hex 4 _)
    (hexQuad?_hex (n := 0xDC00 + (c.toNat - 0x10000) % 0x400) (by omega))
    (by simp only [isLowSurrogate, Bool.and_eq_true, decide_eq_true_eq]; omega)
  have whole : 0x10000 + (0xD800 + (c.toNat - 0x10000) / 0x400 - 0xD800) * 0x400 +
      (0xDC00 + (c.toNat - 0x10000) % 0x400 - 0xDC00) = c.toNat := by
    omega
  rwa [whole, Char.ofNat_toNat] at stands

theorem standsFor_writeChar (c : Char) : StandsFor (writeChar c) c := by
  -- One case for each way to write a character: quote and backslash come before all others.
  simp only [writeChar]
  split
  next special =>
    rcases special with rfl | rfl <;> exact .short (by decide)
  next ordinary =>
    rw [not_or] at ordinary
    split_ifs with line carriage tab back form ascii small
    · exact line ▸ .short (by decide)
    · exact carriage ▸ .short (by decide)
    · exact tab ▸ .short (by decide)
    · exact back ▸ .short (by decide)
    · exact form ▸ .short (by decide)
    · exact .plain (by simp [isPlain, ordinary, ascii.1])
    · exact standsFor_unicodeEscape small
    · exact standsFor_surrogates (Nat.le_of_not_lt small)

/-- What is written for a string denotes it, whatever characters it has. -/
theorem denotes_writeString (s : String) : Denotes (String.ofList (writeString s)) s := by
  refine ⟨s.toList.flatMap writeChar, by simp [writeString], ?_⟩
  induction s.toList with
  | nil => exact .nil
  | cons c cs ih => exact .cons (standsFor_writeChar c) ih

end Json

/-! ### Members of enums -/

namespace EnumDef

variable {values : List Value}

/-- An enum has a member for each of its literals, unless one cannot be written. The source text of
a member for a text denotes the text exactly when the text is plain, and the source texts of members
for different plain texts have no string in common. -/
theorem ofLiterals_denotes (owner propertyName valueType : String)
    (accepted : ∀ value ∈ values, value.isRefused = false) :
    ((∀ value ∈ values, value.isPrintable = true) →
      ∃ e, (ofLiterals owner propertyName values valueType).outcome = .ok e) ∧
    ∀ e, (ofLiterals owner propertyName values valueType).outcome = .ok e →
      List.Forall₂ (fun value m => Literal.Keeps value m.value) values e.members ∧
      ∀ m ∈ e.members, ∀ s, m.value = .text s →
        (Json.Denotes m.value.source s ↔ Json.IsPlain s) ∧
        ∀ m' ∈ e.members, ∀ s', m'.value = .text s' → s ≠ s' →
          Json.IsPlain s → Json.IsPlain s' →
          ∀ t, Json.Denotes m.value.source t → ¬ Json.Denotes m'.value.source t := by
  refine ⟨(ofLiterals_returns_iff owner propertyName valueType accepted).mpr,
    fun e made => ⟨ofLiterals_keeps made, ?_⟩⟩
  intro m _ s text
  rw [text]
  refine ⟨Json.denotes_quotes_self_iff, ?_⟩
  intro m' _ s' text' other plain plain' t denoted denoted'
  rw [text'] at denoted'
  -- Each source text denotes its own string only, so a common string would be both.
  have first : t = s := (Json.denotes_quotes_of_plain plain).mp denoted
  have second : t = s' := (Json.denotes_quotes_of_plain plain').mp denoted'
  exact other (first.symm.trans second)

/-- Two plain texts, one of them beyond ASCII, a truth value and a number. -/
def plainLiterals : List Value :=
  [.text "in progress", .text "größe", .scalar (.bool true), .scalar (.int 2)]

theorem ofLiterals_denotes_progress :
    (∀ value ∈ plainLiterals, value.isRefused = false) ∧
      ∃ e, (ofLiterals "Order" "state" plainLiterals "string").outcome = .ok e ∧
        e.members.map (·.value) = [.text "in progress", .text "größe", .text "true", .int 2] ∧
        Json.IsPlain "in progress" ∧ Json.IsPlain "größe" ∧
        ∃ m ∈ e.members, m.value.source = "\"in progress\"" ∧
          Json.Denotes m.value.source "in progress" ∧
          ∃ m' ∈ e.members, m'.value.source = "\"größe\"" ∧
            ¬ Json.Denotes m'.value.source "in progress" := by
  have accepted : ∀ value ∈ plainLiterals, value.isRefused = false := by decide
  have plain : Json.IsPlain "in progress" := by simp [Json.IsPlain, Json.isPlain]
  have plain' : Json.IsPlain "größe" := by simp [Json.IsPlain, Json.isPlain]
  obtain ⟨e, built, run⟩ : ∃ e,
      (ofLiterals "Order" "state" plainLiterals "string").outcome = .ok e ∧
        e.members.map (·.value) = [.text "in progress", .text "größe", .text "true", .int 2] :=
    exists_of_toOption_map (by decide +kernel)
  obtain ⟨_, denoted⟩ := (ofLiterals_denotes "Order" "state" "string" accepted).2 e built
  obtain ⟨m, listed, text⟩ := List.mem_map.mp (run ▸ List.mem_cons_self)
  obtain ⟨m', listed', text'⟩ :=
    List.mem_map.mp (run ▸ List.mem_cons_of_mem _ List.mem_cons_self)
  obtain ⟨own, apart⟩ := denoted m listed _ text
  refine ⟨accepted, e, built, run, plain, plain', m, listed, by rw [text]; rfl, own.mpr plain,
    m', listed', by rw [text']; rfl, ?_⟩
  exact apart m' listed' _ text' (by decide) plain plain' _ (own.mpr plain)

/-- A size in inches has a quote in it, and one of two slashes is behind a backslash. -/
def oddSizes : List Value := [.text "5\"", .text "\\/", .text "/"]

/-- The size is not given a literal of its own, though there is one. The two slashes are given
literals of the same string. -/
theorem ofLiterals_misspelled :
    (∀ value ∈ oddSizes, value.isRefused = false) ∧
      ∃ e, (ofLiterals "Pipe" "size" oddSizes "string").outcome = .ok e ∧
        ∃ inches ∈ e.members, ∃ escaped ∈ e.members, ∃ slash ∈ e.members,
          inches.value = .text "5\"" ∧ ¬ Json.Denotes inches.value.source "5\"" ∧
          (∃ literal, Json.Denotes literal "5\"") ∧
          escaped.value = .text "\\/" ∧ Json.Denotes escaped.value.source "/" ∧
          slash.value = .text "/" ∧ Json.Denotes slash.value.source "/" := by
  obtain ⟨e, built, run⟩ : ∃ e, (ofLiterals "Pipe" "size" oddSizes "string").outcome = .ok e ∧
      e.members.map (·.value) = [.text "5\"", .text "\\/", .text "/"] :=
    exists_of_toOption_map (by decide +kernel)
  obtain ⟨inches, listed, text⟩ := List.mem_map.mp (run ▸ List.mem_cons_self)
  obtain ⟨escaped, listed', text'⟩ :=
    List.mem_map.mp (run ▸ List.mem_cons_of_mem _ List.mem_cons_self)
  obtain ⟨slash, listed'', text''⟩ := List.mem_map.mp
    (run ▸ List.mem_cons_of_mem _ (List.mem_cons_of_mem _ List.mem_cons_self))
  refine ⟨by decide, e, built, inches, listed, escaped, listed', slash, listed'', text, ?_,
    ⟨_, Json.denotes_writeString _⟩, text', ?_, text'', ?_⟩
  · rw [text]
    exact mt Json.denotes_quotes_self_iff.mp (by simp [Json.IsPlain, Json.isPlain])
  · rw [text']
    exact Json.denotes_quotes_iff.mpr (.cons (.short (by decide)) .nil)
  · rw [text'']
    exact Json.denotes_quotes_self_iff.mpr (by simp [Json.IsPlain, Json.isPlain])

end EnumDef

end RamlTypes
