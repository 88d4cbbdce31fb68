import RamlTypes.Json.Writer
import RamlTypes.Model.Encode
import RamlTypes.Proofs.JsonNumbers
import RamlTypes.Proofs.MappedTypes

/-!
# Written values

What is written for a value that can be written is a JSON text exactly when all numbers in it are
finite. The numbers in a model are those among the members of its enums, and those in what unions
are typed as whose members share no ancestor, which need not be a text.
-/
namespace RamlTypes

/-- The number stands somewhere in the value, other than in a key. -/
inductive Value.Holds (x : Double) : Value → Prop where
  | here : Holds x (.scalar (.float x))
  | item {items : List Value} {item : Value} (listed : item ∈ items) (inside : Holds x item) :
      Holds x (.list items)
  | entry {entries : Entries} {entry : Scalar × Value} (listed : entry ∈ entries)
      (inside : Holds x entry.2) : Holds x (.map entries)
  | first {first second : Value} (inside : Holds x first) : Holds x (.pair first second)
  | second {first second : Value} (inside : Holds x second) : Holds x (.pair first second)

theorem Value.induction {P : Value → Prop} (scalar : ∀ s, P (.scalar s))
    (list : ∀ items : List Value, (∀ item ∈ items, P item) → P (.list items))
    (map : ∀ entries : Entries, (∀ entry ∈ entries, P entry.2) → P (.map entries))
    (set : ∀ items, P (.set items))
    (pair : ∀ first second, P first → P second → P (.pair first second)) : ∀ v, P v
  | .scalar s => scalar s
  | .list items => list items fun item _ => induction scalar list map set pair item
  | .map entries => map entries fun entry _ => induction scalar list map set pair entry.2
  | .set items => set items
  | .pair first second =>
      pair first second (induction scalar list map set pair first)
        (induction scalar list map set pair second)
termination_by v => v
decreasing_by
  · simp only [Value.list.sizeOf_spec]
    have := List.sizeOf_lt_of_mem ‹_›
    omega
  · simp only [Value.map.sizeOf_spec]
    have := List.sizeOf_lt_of_mem ‹_›
    obtain ⟨key, value⟩ := entry
    simp only [Prod.mk.sizeOf_spec] at this ⊢
    omega
  all_goals
    simp only [Value.pair.sizeOf_spec]
    omega

namespace Json

variable {x : Double} {v : Value} {cs : List Char}

/-! ### The layout -/

/-- An entry of a mapping as it is written. -/
def writeEntry (depth : Nat) (entry : Scalar × Value) : List Char :=
  writeKey entry.1 ++ [':', ' '] ++ write depth entry.2

/-- A key is written as a string, whatever it is. -/
theorem writeKey_eq_writeString (key : Scalar) : ∃ s, writeKey key = writeString s := by
  cases key with
  | text s => exact ⟨s, rfl⟩
  | null | bool | int | float | timestamp | bytes => exact ⟨_, rfl⟩

theorem isString_writeKey (key : Scalar) : IsString (writeKey key) := by
  obtain ⟨s, written⟩ := writeKey_eq_writeString key
  exact written ▸ isString_writeString s

/-- Several parts that are written in the same way, each one on a line of its own. -/
def writeLines {α : Type} (depth : Nat) (part : α → List Char) (first : α) (rest : List α) :
    List Char :=
  part first ++ rest.flatMap fun a => ',' :: newline depth ++ part a

section Lines

variable {α : Type} {depth : Nat} {part : α → List Char} {first a : α} {rest : List α}

@[simp]
theorem writeLines_nil : writeLines depth part first [] = part first := by simp [writeLines]

theorem writeLines_cons (next : α) : writeLines depth part first (next :: rest) =
    part first ++ (',' :: newline depth) ++ writeLines depth part next rest := by
  simp [writeLines]

end Lines

theorem write_list (depth : Nat) (item : Value) (items : List Value) :
    write depth (.list (item :: items)) = '[' :: newline (depth + 1) ++
      writeLines (depth + 1) (write (depth + 1)) item items ++ (newline depth ++ [']']) := by
  have behind : writeItems (depth + 1) items =
      items.flatMap fun item => ',' :: newline (depth + 1) ++ write (depth + 1) item := by
    induction items with
    | nil => rfl
    | cons item items ih => simp [writeItems, ih]
  simp [write, writeLines, behind]

theorem write_map (depth : Nat) (entry : Scalar × Value) (entries : Entries) :
    write depth (.map (entry :: entries)) = '{' :: newline (depth + 1) ++
      writeLines (depth + 1) (writeEntry (depth + 1)) entry entries ++
        (newline depth ++ ['}']) := by
  have behind : writeEntries (depth + 1) entries =
      entries.flatMap fun entry => ',' :: newline (depth + 1) ++ writeEntry (depth + 1) entry := by
    induction entries with
    | nil => rfl
    | cons entry entries ih => simp [writeEntries, writeEntry, ih]
  simp [write, writeLines, writeEntry, behind]

/-- A pair is written as the list of both. -/
theorem write_pair (depth : Nat) (first second : Value) :
    write depth (.pair first second) = write depth (.list [first, second]) := by
  simp [write, writeItems]

theorem isSpace_nil : IsSpace [] := by simp [IsSpace]

theorem isSpace_newline (depth : Nat) : IsSpace (newline depth) := by
  refine List.forall_mem_cons.mpr ⟨by simp, fun c blank => ?_⟩
  rw [List.eq_of_mem_replicate blank]
  simp

theorem isMark_self (mark : Char) : IsMark mark [mark] := ⟨[], [], isSpace_nil, isSpace_nil, rfl⟩

theorem isMark_colon : IsMark ':' [':', ' '] := ⟨[], [' '], isSpace_nil, by simp [IsSpace], rfl⟩

theorem isMark_newline (mark : Char) (depth : Nat) : IsMark mark (mark :: newline depth) :=
  ⟨[], newline depth, isSpace_nil, isSpace_newline depth, rfl⟩

theorem newline_isMark (mark : Char) (depth : Nat) : IsMark mark (newline depth ++ [mark]) :=
  ⟨newline depth, [], isSpace_newline depth, isSpace_nil, rfl⟩

/-- A property that all scalars and the marks around them have, and that is kept when texts are put
together. -/
structure IsAssembled (P : List Char → Prop) : Prop where
  nil : P []
  append : ∀ {cs ds}, P cs → P ds → P (cs ++ ds)
  mark : ∀ {mark cs}, mark ∈ marks → IsMark mark cs → P cs
  scalar : ∀ s, P (writeScalar s)

namespace IsAssembled

variable {P : List Char → Prop} (assembled : IsAssembled P)

include assembled

/-- Brackets with nothing between them. -/
theorem pair {first last : Char} (opening : first ∈ marks) (closing : last ∈ marks) :
    P ([first] ++ [last]) :=
  assembled.append (assembled.mark opening (isMark_self first))
    (assembled.mark closing (isMark_self last))

theorem between {first last : Char} (opening : first ∈ marks) (closing : last ∈ marks)
    (depth : Nat) (inner : P cs) :
    P (first :: newline (depth + 1) ++ cs ++ (newline depth ++ [last])) :=
  assembled.append (assembled.append (assembled.mark opening (isMark_newline first _)) inner)
    (assembled.mark closing (newline_isMark last _))

theorem entry {depth : Nat} {entry : Scalar × Value} (value : P (Json.write depth entry.2)) :
    P (writeEntry depth entry) := by
  obtain ⟨s, written⟩ := writeKey_eq_writeString entry.1
  have key : P (writeKey entry.1) := written ▸ assembled.scalar (.text s)
  have colon : P [':', ' '] := assembled.mark (by simp [marks]) isMark_colon
  exact assembled.append (assembled.append key colon) value

theorem lines {α : Type} (depth : Nat) {part : α → List Char} {first : α} {rest : List α}
    (all : ∀ a ∈ first :: rest, P (part a)) : P (writeLines depth part first rest) := by
  induction rest generalizing first with
  | nil => simpa using all
  | cons next rest ih =>
    obtain ⟨here, behind⟩ := List.forall_mem_cons.mp all
    rw [writeLines_cons]
    exact assembled.append (assembled.append here
      (assembled.mark (by simp [marks]) (isMark_newline ',' depth))) (ih behind)

theorem list {items : List Value} (all : ∀ item ∈ items, ∀ depth, P (Json.write depth item))
    (depth : Nat) : P (Json.write depth (.list items)) := by
  cases items with
  | nil => exact assembled.pair (by simp [marks]) (by simp [marks])
  | cons item items =>
    rw [write_list]
    exact assembled.between (by simp [marks]) (by simp [marks]) depth
      (assembled.lines _ fun item listed => all item listed _)

theorem write (v : Value) : ∀ depth, P (Json.write depth v) := by
  induction v using Value.induction with
  | scalar s => exact fun _ => assembled.scalar s
  | list items ih => exact assembled.list ih
  | map entries ih =>
    intro depth
    cases entries with
    | nil => exact assembled.pair (by simp [marks]) (by simp [marks])
    | cons entry entries =>
      rw [write_map]
      exact assembled.between (by simp [marks]) (by simp [marks]) depth
        (assembled.lines _ fun entry listed => assembled.entry (ih entry listed _))
  | set items => exact fun _ => assembled.nil
  | pair first second ih ih' =>
    intro depth
    rw [write_pair]
    exact assembled.list (by simp [ih, ih']) depth

end IsAssembled

/-! ### Values that can be written -/

theorem problemOf?_eq_none_iff {items : List Value} :
    problemOf? items = none ↔ ∀ item ∈ items, problem? item = none := by
  induction items with
  | nil => simp [problemOf?]
  | cons item rest ih => simp [problemOf?, ih]

theorem problemIn?_eq_none_iff {entries : Entries} :
    problemIn? entries = none ↔
      ∀ entry ∈ entries, scalarProblem? .key entry.1 = none ∧ problem? entry.2 = none := by
  induction entries with
  | nil => simp [problemIn?]
  | cons entry rest ih => simp [problemIn?, ih]

theorem problem?_pair (first second : Value) :
    problem? (.pair first second) = problem? (.list [first, second]) := by
  simp [problem?, problemOf?]

/-! ### Finite numbers -/

theorem derives_writeDouble (finite : x.isFinite = true) :
    Derives .value (writeScalar (.float x)) := by
  have number := Double.isNumber_text finite
  cases x with
  | nan | infinite => cases finite
  | finite => exact .number number

/-- A scalar that has a form is written as a value of the grammar, unless it is a number that is not
finite. -/
theorem derives_writeScalar {s : Scalar} (writable : scalarProblem? .value s = none)
    (finite : ∀ x, s = .float x → x.isFinite = true) : Derives .value (writeScalar s) := by
  cases s with
  | null => exact .null
  | bool b =>
    cases b with
    | true => exact .true
    | false => exact .false
  | int n => exact .number (isNumber_int n)
  | float x => exact derives_writeDouble (finite x rfl)
  | text s => exact .string (isString_writeString s)
  | timestamp | bytes => cases writable

theorem derives_writeLines {α : Type} {symbol : Symbol} (depth : Nat) {part : α → List Char}
    {first : α} {rest : List α} (all : ∀ a ∈ first :: rest, Derives symbol (part a)) :
    Derives (.several symbol) (writeLines depth part first rest) := by
  induction rest generalizing first with
  | nil => exact .one (by simpa using all)
  | cons next rest ih =>
    obtain ⟨here, behind⟩ := List.forall_mem_cons.mp all
    rw [writeLines_cons]
    exact .more here (isMark_newline ',' depth) (ih behind)

theorem derives_write_list {items : List Value} (depth : Nat)
    (all : ∀ item ∈ items, Derives .value (write (depth + 1) item)) :
    Derives .value (write depth (.list items)) := by
  cases items with
  | nil => exact .emptyArray (isMark_self '[') (isMark_self ']')
  | cons item items =>
    rw [write_list]
    exact .array (isMark_newline _ _) (derives_writeLines _ all) (newline_isMark _ _)

/-- A value in which all numbers are finite is written as a value of the grammar. -/
theorem derives_write (writable : problem? v = none) (finite : ∀ x, v.Holds x → x.isFinite = true)
    (depth : Nat) : Derives .value (write depth v) := by
  induction v using Value.induction generalizing depth with
  | scalar s => exact derives_writeScalar writable fun x same => finite x (same ▸ .here)
  | list items ih =>
    rw [problem?, problemOf?_eq_none_iff] at writable
    exact derives_write_list depth fun item listed =>
      ih item listed (writable item listed) (fun x holds => finite x (.item listed holds)) _
  | set => cases writable
  | pair first second ih ih' =>
    rw [problem?_pair, problem?, problemOf?_eq_none_iff] at writable
    rw [write_pair]
    have here := ih (writable first (by simp)) (fun x holds => finite x (.first holds)) (depth + 1)
    have there :=
      ih' (writable second (by simp)) (fun x holds => finite x (.second holds)) (depth + 1)
    exact derives_write_list depth (by simp [here, there])
  | map entries ih =>
    rw [problem?, problemIn?_eq_none_iff] at writable
    cases entries with
    | nil => exact .emptyObject (isMark_self '{') (isMark_self '}')
    | cons entry entries =>
      rw [write_map]
      have member : ∀ e ∈ entry :: entries, Derives .member (writeEntry (depth + 1) e) := by
        intro e listed
        have value := ih e listed (writable e listed).2
          (fun x holds => finite x (.entry listed holds)) (depth + 1)
        exact .member (isString_writeKey e.1) isMark_colon value
      exact .object (isMark_newline _ _) (derives_writeLines _ member) (newline_isMark _ _)

/-! ### Other numbers -/

theorem writeScalar_odd (odd : x.isFinite = false) :
    IsClosed (writeScalar (.float x)) ∧ HasOdd (writeScalar (.float x)) := by
  have unquoted : '"' ∉ writeScalar (.float x) := by
    cases x with
    | nan => simp [writeScalar]
    | infinite negative => cases negative <;> simp [writeScalar]
    | finite => cases odd
  refine ⟨isClosed_of_unquoted unquoted, ?_⟩
  rw [HasOdd, bare_of_unquoted unquoted]
  cases x with
  | nan => exact ⟨'N', by simp [writeScalar], rfl⟩
  | infinite negative => exact ⟨'I', by cases negative <;> simp [writeScalar], rfl⟩
  | finite => cases odd

theorem isClosed_writeScalar (s : Scalar) : IsClosed (writeScalar s) := by
  -- What the grammar knows closes its strings, and everything else has no quotes.
  cases s with
  | null => exact (Derives.null).isOrdinary.closed
  | bool b => exact isClosed_of_unquoted (by cases b <;> simp [writeScalar])
  | int n => exact (Derives.number (isNumber_int n)).isOrdinary.closed
  | float x =>
    cases finite : x.isFinite with
    | true => exact (derives_writeDouble finite).isOrdinary.closed
    | false => exact (writeScalar_odd finite).1
  | text s => exact (Derives.string (isString_writeString s)).isOrdinary.closed
  | timestamp | bytes => exact isClosed_of_unquoted List.not_mem_nil

theorem isAssembled_isClosed : IsAssembled IsClosed where
  nil := isClosed_of_unquoted List.not_mem_nil
  append := IsClosed.append
  mark known marked := (marked.isOrdinary known).closed
  scalar := isClosed_writeScalar

/-- A part that is not finite shows in all lines together. -/
theorem hasOdd_writeLines {α : Type} (depth : Nat) {part : α → List Char} {first a : α}
    {rest : List α} (closed : ∀ a, IsClosed (part a)) (listed : a ∈ first :: rest)
    (odd : HasOdd (part a)) : HasOdd (writeLines depth part first rest) := by
  induction rest generalizing first with
  | nil => simpa [List.mem_singleton.mp listed] using odd
  | cons next rest ih =>
    -- All strings in front of the part are closed, so it stands outside of strings there as well.
    have comma := isAssembled_isClosed.mark (by simp [marks]) (isMark_newline ',' depth)
    rw [writeLines_cons]
    rcases List.mem_cons.mp listed with rfl | behind
    · exact (odd.append_right (closed a) _).append_right ((closed a).append comma) _
    · exact (ih behind).append_left ((closed first).append comma)

theorem hasOdd_between {first last : Char} (opening : first ∈ marks) (depth : Nat)
    (closed : IsClosed cs) (odd : HasOdd cs) :
    HasOdd (first :: newline (depth + 1) ++ cs ++ (newline depth ++ [last])) := by
  have left := isAssembled_isClosed.mark opening (isMark_newline first (depth + 1))
  exact (odd.append_left left).append_right (left.append closed) _

theorem hasOdd_write_list {items : List Value} {item : Value} (depth : Nat) (listed : item ∈ items)
    (odd : HasOdd (write (depth + 1) item)) : HasOdd (write depth (.list items)) := by
  have closed (item : Value) := isAssembled_isClosed.write item (depth + 1)
  obtain ⟨first, rest, rfl⟩ := List.exists_cons_of_ne_nil (List.ne_nil_of_mem listed)
  rw [write_list]
  exact hasOdd_between (by simp [marks]) depth
    (isAssembled_isClosed.lines _ fun item _ => closed item) (hasOdd_writeLines _ closed listed odd)

/-- A number that is not finite shows outside of all strings. -/
theorem hasOdd_write (odd : x.isFinite = false) (holds : v.Holds x) (depth : Nat) :
    HasOdd (write depth v) := by
  have closed (depth : Nat) (v : Value) := isAssembled_isClosed.write v depth
  induction holds generalizing depth with
  | here => exact (writeScalar_odd odd).2
  | item listed _ ih => exact hasOdd_write_list depth listed (ih _)
  | first _ ih =>
    rw [write_pair]
    exact hasOdd_write_list depth (by simp) (ih _)
  | second _ ih =>
    rw [write_pair]
    exact hasOdd_write_list depth (by simp) (ih _)
  | @entry entries entry listed _ ih =>
    obtain ⟨first, rest, rfl⟩ := List.exists_cons_of_ne_nil (List.ne_nil_of_mem listed)
    have parts (e : Scalar × Value) : IsClosed (writeEntry (depth + 1) e) :=
      isAssembled_isClosed.entry (closed _ _)
    have shown : HasOdd (writeEntry (depth + 1) entry) :=
      (ih _).append_left ((isString_writeKey entry.1).isClosed.append
        (isAssembled_isClosed.mark (by simp [marks]) isMark_colon))
    rw [write_map]
    exact hasOdd_between (by simp [marks]) depth
      (isAssembled_isClosed.lines _ fun e _ => parts e) (hasOdd_writeLines _ parts listed shown)

/-- A value on lines of its own is a JSON text exactly when all numbers in it are finite. -/
theorem isText_render_iff (writable : problem? v = none) :
    IsText (render v ++ "\n").toList ↔ ∀ x, v.Holds x → x.isFinite = true := by
  have written : (render v ++ "\n").toList = write 0 v ++ ['\n'] := by simp [render]
  rw [written]
  -- The number that is not finite has a letter outside of strings that no JSON text has there.
  constructor
  · intro text x holds
    by_contra odd
    have shown := hasOdd_write (Bool.eq_false_of_not_eq_true odd) holds 0
    exact (shown.append_right (isAssembled_isClosed.write v 0) _).not_isText text
  · intro finite
    have derived := derives_write writable finite 0
    exact ⟨[], _, ['\n'], isSpace_nil, derived, by simp [IsSpace], rfl⟩

/-! ### Plain characters -/

end Json

/-! ### Models -/

namespace Value

variable {x : Double}

@[simp]
theorem holds_scalar {s : Scalar} : Holds x (.scalar s) ↔ s = .float x := by
  constructor
  · rintro ⟨⟩
    rfl
  · rintro rfl
    exact .here

@[simp]
theorem holds_list {items : List Value} : Holds x (.list items) ↔ ∃ item ∈ items, item.Holds x := by
  constructor
  · rintro (_ | ⟨listed, inside⟩)
    exact ⟨_, listed, inside⟩
  · rintro ⟨item, listed, inside⟩
    exact .item listed inside

@[simp]
theorem holds_record {entries : List (String × Value)} :
    Holds x (record entries) ↔ ∃ entry ∈ entries, entry.2.Holds x := by
  constructor
  · rintro (_ | _ | ⟨listed, inside⟩ | _ | _)
    obtain ⟨entry, member, rfl⟩ := List.mem_map.mp listed
    exact ⟨entry, member, inside⟩
  · rintro ⟨entry, listed, inside⟩
    exact .entry (List.mem_map.mpr ⟨entry, listed, rfl⟩) inside

end Value

variable {x : Double}

theorem exists_mem_exists_and {α β : Type} {as : List α} {p : α → β → Prop} {q : β → Prop} :
    (∃ a ∈ as, ∃ b, p a b ∧ q b) ↔ ∃ b, (∃ a ∈ as, p a b) ∧ q b := by
  constructor
  · rintro ⟨a, listed, b, here, there⟩
    exact ⟨b, ⟨a, listed, here⟩, there⟩
  · rintro ⟨b, ⟨a, listed, here⟩, there⟩
    exact ⟨a, listed, b, here, there⟩

namespace TargetType

/-- Some union in the target, at any depth, is typed as the value. -/
def HasBase (base : Value) (target : TargetType) : Prop :=
  ∃ members, IsPart (.unionOf base members) target

section HasBase

variable {base : Value}

theorem hasBase_iff {target : TargetType} :
    target.HasBase base ↔
      (∃ members, target = .unionOf base members) ∨
        ∃ operand ∈ target.operands, operand.HasBase base := by
  constructor
  · rintro ⟨members, inside⟩
    rcases isPart_iff.mp inside with same | ⟨operand, listed, inside⟩
    · exact .inl ⟨members, same.symm⟩
    · exact .inr ⟨operand, listed, members, inside⟩
  · rintro (⟨members, rfl⟩ | ⟨operand, listed, members, inside⟩)
    · exact ⟨members, .self⟩
    · exact ⟨members, .within listed inside⟩

@[simp]
theorem not_hasBase_primitive (name : String) : ¬ HasBase base (.primitive name) := by
  rw [hasBase_iff]
  simp [operands]

@[simp]
theorem not_hasBase_enumRef (name : String) : ¬ HasBase base (.enumRef name) := by
  rw [hasBase_iff]
  simp [operands]

@[simp]
theorem not_hasBase_objectRef (name : String) : ¬ HasBase base (.objectRef name) := by
  rw [hasBase_iff]
  simp [operands]

@[simp]
theorem hasBase_listOf {element : TargetType} :
    HasBase base (.listOf element) ↔ HasBase base element := by
  rw [hasBase_iff]
  simp [operands]

@[simp]
theorem hasBase_unionOf {ancestor : Value} {members : List TargetType} :
    HasBase base (.unionOf ancestor members) ↔
      base = ancestor ∨ ∃ member ∈ members, HasBase base member := by
  rw [hasBase_iff]
  simp [operands, eq_comm]

end HasBase

mutual

/-- A target type holds the numbers in what its unions are typed as. -/
theorem holds_encode : ∀ target : TargetType,
    target.encode.Holds x ↔ ∃ base, target.HasBase base ∧ base.Holds x
  | .primitive _ => by simp [encode]
  | .listOf element => by simp [encode, holds_encode element]
  | .enumRef _ => by simp [encode]
  | .objectRef _ => by simp [encode]
  | .unionOf ancestor members => by
    have inner := holds_encodeAll members
    simp [encode, inner, or_and_right, exists_or]

theorem holds_encodeAll : ∀ targets : List TargetType,
    (∃ value ∈ encodeAll targets, value.Holds x) ↔
      ∃ base, (∃ target ∈ targets, target.HasBase base) ∧ base.Holds x
  | [] => by simp [encodeAll]
  | target :: rest => by
    simp [encodeAll, holds_encode target, holds_encodeAll rest, or_and_right, exists_or]

end

end TargetType

namespace Value

@[simp]
theorem not_holds_bool (b : Bool) : ¬ (Value.bool b).Holds x := by simp [Value.bool]

@[simp]
theorem not_holds_texts (names : List String) : ¬ (texts names).Holds x := by simp [texts]

@[simp]
theorem not_holds_optionalText (text : Option String) : ¬ (optionalText text).Holds x := by
  cases text <;> simp [optionalText]

end Value

theorem ResolvedField.holds_encode (field : ResolvedField) :
    field.encode.Holds x ↔ ∃ base, field.type.HasBase base ∧ base.Holds x := by
  cases members : field.unionMembers <;> simp [encode, members, TargetType.holds_encode]

/-- The target types of a class: those of its fields and its definition. -/
def ResolvedClass.targets (c : ResolvedClass) : List TargetType :=
  c.fields.map (·.type) ++ c.definition.toList

theorem ResolvedClass.holds_encode (c : ResolvedClass) :
    c.encode.Holds x ↔ ∃ base, (∃ target ∈ c.targets, target.HasBase base) ∧ base.Holds x := by
  rw [← exists_mem_exists_and]
  cases named : c.enum <;> cases defined : c.definition <;>
    simp [encode, targets, named, defined, ResolvedField.holds_encode, TargetType.holds_encode,
      or_and_right, exists_or]

theorem Deserializer.not_holds_encode (d : Deserializer) : ¬ d.encode.Holds x := by
  simp [encode]

theorem FieldWarning.not_holds_encode (warning : FieldWarning) : ¬ warning.encode.Holds x := by
  simp [encode]

theorem EnumMember.holds_encode (member : EnumMember) :
    member.encode.Holds x ↔ member.value = .float x := by
  obtain ⟨name, value⟩ := member
  cases value <;> simp [encode, Literal.encode]

theorem EnumDef.holds_encode (e : EnumDef) :
    e.encode.Holds x ↔ ∃ member ∈ e.members, member.value = .float x := by
  simp [encode, EnumMember.holds_encode]

/-- Some union in a field or definition of the model is typed as the value. -/
def Model.HasBase (m : Model) (base : Value) : Prop :=
  ∃ c ∈ m.classes, ∃ target ∈ c.targets, target.HasBase base

/-- A model holds the numbers among its enum members, and those in what its unions are typed as. -/
theorem Model.holds_encode (m : Model) :
    m.encode.Holds x ↔ (∃ e ∈ m.enums, ∃ member ∈ e.members, member.value = .float x) ∨
      ∃ base, m.HasBase base ∧ base.Holds x := by
  have classes : (∃ c ∈ m.classes, c.encode.Holds x) ↔ ∃ base, m.HasBase base ∧ base.Holds x := by
    simp only [ResolvedClass.holds_encode]
    exact exists_mem_exists_and
  rw [← classes]
  simp [encode, EnumDef.holds_encode, Deserializer.not_holds_encode,
    FieldWarning.not_holds_encode, or_comm]

end RamlTypes
