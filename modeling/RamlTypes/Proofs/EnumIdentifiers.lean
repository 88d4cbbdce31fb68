import RamlTypes.Proofs.EnumMembers

/-!
# Members as identifiers

The capital of a character may be several characters, and characters from all over Unicode have
their capitals in ASCII, but no capital is a small letter of ASCII. So an identifier made from a
text has only capital letters, digits and underscores of ASCII, a digit in front is shielded, and
made from such a text it is the text itself. A number behind an underscore changes nothing of this.
From the empty text no character can be made, though: the first member for it has an empty name.
-/
namespace RamlTypes

namespace Text

/-- A capital letter, a digit or an underscore of ASCII. -/
def isBareChar (c : Char) : Bool := c.isUpper || c.isDigit || c == '_'

/-- The text has only such characters, and no digit in front. -/
structure IsBare (s : String) : Prop where
  chars : ∀ c ∈ s.toList, isBareChar c = true
  front : ∀ c, s.toList.head? = some c → c.isDigit = false

/-- A bare text that is not empty, and from which the identifier is made that it is itself. -/
structure IsIdentifier (s : String) : Prop where
  nonempty : s ≠ ""
  bare : IsBare s
  unchanged : identifier s = s

/-! ### Capitals -/

/-- The code of a small letter of ASCII. -/
def isLowerCode (code : Nat) : Bool := 0x61 ≤ code && code ≤ 0x7A

/-- The images of a run are all behind the small letters, or all before them. -/
theorem upperRuns_apart :
    ∀ run ∈ upperRuns, 0x7A < run.image ∨ run.image + (run.last - run.first) < 0x61 := by
  decide +kernel

theorem upperExpansions_apart :
    ∀ expansion ∈ upperExpansions, expansion.2 ≠ [] ∧
      ∀ code ∈ expansion.2, isLowerCode code = false := by
  decide +kernel

theorem CaseRun.image?_apart {run : CaseRun} {code image : Nat} (listed : run ∈ upperRuns)
    (found : run.image? code = some image) : isLowerCode image = false := by
  have apart := upperRuns_apart run listed
  simp only [CaseRun.image?] at found
  split at found
  next within =>
    cases found
    simp only [isLowerCode, Bool.and_eq_false_iff, decide_eq_false_iff_not]
    omega
  · cases found

/-- The single capital of a character beyond ASCII that is no exception. -/
theorem findSome?_image?_apart {code : Nat} (beyond : ¬ code < 0x80) :
    isLowerCode ((upperRuns.findSome? (·.image? code)).getD code) = false := by
  cases found : upperRuns.findSome? (·.image? code) with
  | none =>
    simp only [Option.getD_none, isLowerCode, Bool.and_eq_false_iff, decide_eq_false_iff_not]
    omega
  | some image =>
    obtain ⟨run, listed, here⟩ := List.exists_of_findSome?_eq_some found
    exact run.image?_apart listed here

/-- Every character has a capital, and none of its characters is a small letter. -/
theorem upperCodes_apart (code : Nat) :
    upperCodes code ≠ [] ∧ ∀ image ∈ upperCodes code, isLowerCode image = false := by
  rw [upperCodes]
  split
  next ascii =>
    refine ⟨List.cons_ne_nil _ _, fun image member => ?_⟩
    rw [List.mem_singleton.mp member]
    simp only [isLowerCode, Bool.and_eq_false_iff, decide_eq_false_iff_not]
    split <;> omega
  next beyond =>
    split
    next codes found =>
      obtain ⟨before, after, split, _⟩ := List.lookup_eq_some_iff.mp found
      exact upperExpansions_apart (code, codes) (by simp [split])
    next =>
      refine ⟨List.cons_ne_nil _ _, fun image member => ?_⟩
      rw [List.mem_singleton.mp member]
      exact findSome?_image?_apart beyond

theorem isLower_eq (c : Char) : c.isLower = isLowerCode c.toNat := rfl

theorem isLower_ofNat {code : Nat} (apart : isLowerCode code = false) :
    (Char.ofNat code).isLower = false := by
  have value : (Char.ofNat code).toNat = if code.isValidChar then code else 0 :=
    Char.toNat_ofNat code
  rw [isLower_eq, value]
  split
  next => exact apart
  next => rfl

theorem upperChar_ne_nil (c : Char) : upperChar c ≠ [] := by
  simpa [upperChar] using (upperCodes_apart c.toNat).1

theorem not_isLower_of_mem_upper {cs : List Char} {c : Char} (member : c ∈ upper cs) :
    c.isLower = false := by
  obtain ⟨d, _, inside⟩ := List.mem_flatMap.mp member
  obtain ⟨code, listed, rfl⟩ := List.mem_map.mp inside
  exact isLower_ofNat ((upperCodes_apart d.toNat).2 code listed)

theorem toNat_of_isBareChar {c : Char} (bare : isBareChar c = true) :
    c.toNat < 0x80 ∧ ¬ (0x61 ≤ c.toNat ∧ c.toNat ≤ 0x7A) := by
  simp only [isBareChar, Char.isUpper, Char.isDigit, Bool.or_eq_true, Bool.and_eq_true,
    decide_eq_true_eq, beq_iff_eq] at bare
  rcases bare with (upper | digit) | rfl
  · have bounds : 0x41 ≤ c.toNat ∧ c.toNat ≤ 0x5A := upper
    omega
  · have bounds : 0x30 ≤ c.toNat ∧ c.toNat ≤ 0x39 := digit
    omega
  · decide

theorem upperChar_of_isBareChar {c : Char} (bare : isBareChar c = true) : upperChar c = [c] := by
  obtain ⟨ascii, apart⟩ := toNat_of_isBareChar bare
  rw [upperChar, upperCodes, if_pos ascii, if_neg apart, List.map_singleton, Char.ofNat_toNat]

/-! ### Identifiers -/

theorem isBareChar_of_mem_identifierChars {cs : List Char} {c : Char}
    (member : c ∈ identifierChars cs) : isBareChar c = true := by
  obtain ⟨d, raised, rfl⟩ := List.mem_map.mp member
  have apart := not_isLower_of_mem_upper raised
  split
  -- A letter that is no small one is a capital.
  next word => simpa [isWordChar, isBareChar, Char.isAlphanum, Char.isAlpha, apart] using word
  next => rfl

theorem identifierChars_eq_nil_iff {cs : List Char} : identifierChars cs = [] ↔ cs = [] := by
  cases cs with
  | nil => simp [identifierChars, upper]
  | cons c cs => simp [identifierChars, upper, upperChar_ne_nil]

theorem isWordChar_of_isBareChar {c : Char} (bare : isBareChar c = true) :
    isWordChar c = true := by
  simp only [isBareChar, isWordChar, Char.isAlphanum, Char.isAlpha, Bool.or_eq_true] at bare ⊢
  tauto

theorem identifierChars_of_bare {cs : List Char} (bare : ∀ c ∈ cs, isBareChar c = true) :
    identifierChars cs = cs := by
  induction cs with
  | nil => rfl
  | cons c cs ih =>
    obtain ⟨first, others⟩ := List.forall_mem_cons.mp bare
    have step : identifierChars (c :: cs) =
        (if isWordChar c then c else '_') :: identifierChars cs := by
      simp [identifierChars, upper, upperChar_of_isBareChar first]
    rw [step, if_pos (isWordChar_of_isBareChar first), ih others]

/-- A text from any other is bare. -/
theorem identifier_isBare (s : String) : IsBare (identifier s) := by
  rw [identifier]
  split
  next => exact ⟨by simp, by simp⟩
  next c rest made =>
    have bare : ∀ d ∈ c :: rest, isBareChar d = true := by
      rw [← made]
      exact fun _ => isBareChar_of_mem_identifierChars
    split
    next => exact ⟨by simpa [isBareChar] using bare, by simp⟩
    next free => exact ⟨by simpa using bare, by simpa using free⟩

theorem IsBare.identifier_eq {s : String} (bare : IsBare s) : identifier s = s := by
  rw [identifier, identifierChars_of_bare bare.chars]
  split
  next empty => exact (String.toList_eq_nil_iff.mp empty).symm
  next c rest split =>
    have free := bare.front c (by rw [split, List.head?_cons])
    simp [free, ← split]

theorem IsBare.isIdentifier {s : String} (bare : IsBare s) (nonempty : s ≠ "") : IsIdentifier s :=
  ⟨nonempty, bare, bare.identifier_eq⟩

theorem identifier_eq_empty_iff {s : String} : identifier s = "" ↔ s = "" := by
  rw [identifier]
  split
  next empty => simpa [identifierChars_eq_nil_iff] using empty
  next c rest made =>
    have nonempty : s ≠ "" := by
      rintro rfl
      cases made
    refine iff_of_false ?_ nonempty
    split <;> simp

/-- A number behind an underscore. -/
theorem IsBare.append_number {s : String} (bare : IsBare s) (n : Nat) :
    IsBare (s ++ "_" ++ toString n) := by
  have digits : ∀ c ∈ (toString n).toList, c.isDigit = true := by
    intro c member
    rw [Nat.toString_eq_ofList_toDigits, String.toList_ofList] at member
    exact Nat.isDigit_of_mem_toDigits (by decide) (by decide) member
  refine ⟨fun c member => ?_, fun c front => ?_⟩
  · simp only [String.toList_append, List.mem_append] at member
    rcases member with (inside | under) | number
    · exact bare.chars c inside
    · cases List.mem_singleton.mp under
      rfl
    · simp [isBareChar, digits c number]
  · simp only [String.toList_append, List.head?_append, Option.or_eq_some_iff] at front
    rcases front with (here | ⟨_, under⟩) | ⟨none, _⟩
    · exact bare.front c here
    · cases under
      rfl
    · simp at none

end Text

/-! ### Literals -/

/-- A name is asked for as the identifier made from a text, which is empty for one literal only. -/
theorem Literal.baseName_eq (literal : Literal) :
    ∃ s, literal.baseName = Text.identifier s ∧ (s = "" ↔ literal = .text "") := by
  cases literal with
  | text s => exact ⟨s, rfl, by simp⟩
  | int n => exact ⟨_, rfl, by simp⟩
  | float x =>
    rw [baseName]
    split
    next n _ => exact ⟨_, rfl, by simp⟩
    next => exact ⟨_, rfl, by simp⟩

theorem Literal.baseName_isBare (literal : Literal) : Text.IsBare literal.baseName := by
  obtain ⟨s, same, _⟩ := literal.baseName_eq
  rw [same]
  exact Text.identifier_isBare s

theorem Literal.baseName_eq_empty_iff {literal : Literal} :
    literal.baseName = "" ↔ literal = .text "" := by
  obtain ⟨s, same, empty⟩ := literal.baseName_eq
  rw [same, Text.identifier_eq_empty_iff, empty]

/-! ### Members -/

namespace EnumDef

variable {base name : String} {taken : List String} {values : List Value}
  {members : List EnumMember}

theorem IsNameFor.isBare (named : IsNameFor taken base name) (bare : Text.IsBare base) :
    Text.IsBare name := by
  cases named with
  | own => exact bare
  | numbered n => exact bare.append_number n

/-- A name with a number is not empty. -/
theorem IsNameFor.eq_empty_iff (named : IsNameFor taken base name) :
    name = "" ↔ base = "" ∧ "" ∉ taken := by
  cases named with
  | own free => exact ⟨fun empty => ⟨empty, empty ▸ free⟩, And.left⟩
  | numbered n used =>
    refine iff_of_false (by simp [EnumDef.numbered]) ?_
    rintro ⟨rfl, free⟩
    exact free used

/-- The empty name is taken by the first member for the empty text. -/
theorem NamedInTurn.empty_mem_iff (named : NamedInTurn [] members) :
    "" ∈ members.map (·.name) ↔ ∃ m ∈ members, m.value = .text "" := by
  induction members using List.reverseRecOn with
  | nil => simp
  | append_singleton before m ih =>
    have earlier := ih named.of_append
    have last := (named before m [] rfl).eq_empty_iff
    rw [List.append_nil, earlier, Literal.baseName_eq_empty_iff] at last
    rw [List.map_append, List.map_singleton, List.mem_append, List.mem_singleton, earlier,
      @eq_comm _ "" m.name, last]
    simp only [List.mem_append, List.mem_singleton, or_and_right, exists_or, exists_eq_left]
    -- Only where it is the first does the last member have the empty name.
    rw [or_and_left]
    exact and_iff_left (em _)

/-- There is a member for each literal, unless one cannot be written, and its name is an identifier
or empty. It is empty for the empty text, unless an earlier member is one for the empty text as
well. -/
theorem ofLiterals_identifiers (owner propertyName valueType : String)
    (accepted : ∀ value ∈ values, value.isRefused = false) :
    ((∀ value ∈ values, value.isPrintable = true) →
      ∃ e, (ofLiterals owner propertyName values valueType).outcome = .ok e) ∧
    ∀ e, (ofLiterals owner propertyName values valueType).outcome = .ok e →
      List.Forall₂ (fun value m => Literal.Keeps value m.value) values e.members ∧
      ∀ before m after, e.members = before ++ m :: after →
        (Text.IsIdentifier m.name ∨ m.name = "") ∧
          (m.name = "" ↔ m.value = .text "" ∧ ∀ other ∈ before, other.value ≠ .text "") := by
  refine ⟨(ofLiterals_returns_iff owner propertyName valueType accepted).mpr,
    fun e made => ⟨ofLiterals_keeps made, ?_⟩⟩
  obtain ⟨members, built, rfl⟩ := ofLiterals_ok_iff.mp made
  have named := membersFor_namedInTurn built
  intro before m after split
  obtain rfl : members = before ++ m :: after := split
  have here := named before m after rfl
  rw [List.append_nil] at here
  constructor
  · by_cases empty : m.name = ""
    · exact .inr empty
    · exact .inl ((here.isBare m.value.baseName_isBare).isIdentifier empty)
  · rw [here.eq_empty_iff, Literal.baseName_eq_empty_iff, named.of_append.empty_mem_iff]
    simp

/-- Texts whose capitals are longer or in ASCII, numbers, and the empty text twice. -/
def oddLiterals : List Value :=
  [.text "2-ﬁx", .text "ſtraße", .scalar (.int (-1)), .scalar (.float .nan), .text "", .text ""]

theorem ofLiterals_identifiers_odd :
    (∀ value ∈ oddLiterals, value.isRefused = false) ∧
      ∃ e, (ofLiterals "Order" "state" oddLiterals "string").outcome = .ok e ∧
        e.members.map (·.name) = ["_2_FIX", "STRASSE", "E_1", "ENAN", "", "_2"] ∧
        ∀ before m after, e.members = before ++ m :: after →
          (Text.IsIdentifier m.name ∨ m.name = "") ∧
            (m.name = "" ↔ m.value = .text "" ∧ ∀ other ∈ before, other.value ≠ .text "") := by
  have accepted : ∀ value ∈ oddLiterals, value.isRefused = false := by decide
  obtain ⟨e, built, run⟩ : ∃ e,
      (ofLiterals "Order" "state" oddLiterals "string").outcome = .ok e ∧
        e.members.map (·.name) = ["_2_FIX", "STRASSE", "E_1", "ENAN", "", "_2"] :=
    exists_of_toOption_map (by decide +kernel)
  obtain ⟨_, identified⟩ :=
    (ofLiterals_identifiers "Order" "state" "string" accepted).2 e built
  exact ⟨accepted, e, built, run, identified⟩

/-- A state without a text is a member without a name. -/
theorem ofLiterals_unnamed :
    (∀ value ∈ [Value.text ""], value.isRefused = false) ∧
      ∃ e, (ofLiterals "Order" "state" [.text ""] "string").outcome = .ok e ∧
        ∃ m ∈ e.members, m.name = "" ∧ ¬ Text.IsIdentifier m.name := by
  have accepted : ∀ value ∈ [Value.text ""], value.isRefused = false := by decide
  obtain ⟨e, built, run⟩ : ∃ e,
      (ofLiterals "Order" "state" [.text ""] "string").outcome = .ok e ∧
        e.members = [⟨"", .text ""⟩] :=
    exists_of_toOption_map (by decide +kernel)
  refine ⟨accepted, e, built, ⟨"", .text ""⟩, by simp [run], rfl, ?_⟩
  exact fun identifier => identifier.nonempty rfl

end EnumDef

end RamlTypes
