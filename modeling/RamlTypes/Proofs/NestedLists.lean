import RamlTypes.Proofs.Enclosures
import RamlTypes.Proofs.SupportedExpressions

/-!
# Nested lists

A target type has a list of lists where the expression has an array as the element of an array. The
suffixes at the end of a text are counted, and more than one of them is refused. But they are only
counted as far as they stand behind each other: behind a parenthesis or a bar the count starts anew,
and the array in front of it is an element.
-/
namespace RamlTypes

namespace TypeExpr

open Text

def isArray : TypeExpr → Bool
  | array _ _ _ => true
  | _ => false

/-- So many array suffixes, with white space in front of each. -/
inductive IsArrayTail : Nat → List Char → Prop where
  | nothing : IsArrayTail 0 []
  | suffix {count : Nat} {tail blanks : List Char} (front : IsArrayTail count tail)
      (blank : ∀ c ∈ blanks, isBlank c = true) :
      IsArrayTail (count + 1) (tail ++ blanks ++ arraySuffix)

/-- The text ends with a closing parenthesis or a bar. -/
def EndsShut (cs : List Char) : Prop := cs.getLast? = some ')' ∨ cs.getLast? = some '|'

variable {cs : List Char}

/-! ### Counting suffixes -/

theorem trim_append_blanks {blanks : List Char} (blank : ∀ c ∈ blanks, isBlank c = true)
    (cs : List Char) : trim (cs ++ blanks) = trim cs := by
  induction blanks generalizing cs with
  | nil => rw [List.append_nil]
  | cons c blanks ih =>
    have next := ih (fun d member => blank d (List.mem_cons_of_mem _ member)) (cs ++ [c])
    rw [List.append_assoc, List.singleton_append] at next
    rw [next, trim_append_blank (blank c List.mem_cons_self)]

/-- All suffixes are counted, whatever they stand behind. -/
theorem IsArrayTail.le_peelArrays {count : Nat} {tail : List Char} (behind : IsArrayTail count tail)
    (cs : List Char) : count ≤ (peelArrays (trim (cs ++ tail))).2 := by
  induction behind with
  | nothing => exact Nat.zero_le _
  | @suffix count tail blanks front blank ih =>
    -- With the last suffix goes the white space in front of it, and the count goes on from there.
    have trimmed : trim (cs ++ (tail ++ blanks ++ arraySuffix)) =
        trimLeft (cs ++ tail ++ blanks) ++ arraySuffix := by
      rw [← List.append_assoc, ← List.append_assoc]
      exact trim_append_suffix rfl rfl (by decide) (by decide) _
    have before : trimRight (trimLeft (cs ++ tail ++ blanks)) = trim (cs ++ tail) :=
      trim_append_blanks blank (cs ++ tail)
    rw [trimmed, peelArrays_append, before]
    omega

/-- Only white space is trimmed away. -/
theorem exists_blanks (cs : List Char) :
    ∃ blanks, (∀ c ∈ blanks, isBlank c = true) ∧ cs = trimRight cs ++ blanks := by
  refine ⟨(cs.reverse.takeWhile isBlank).reverse, fun c member => ?_, ?_⟩
  · exact List.mem_takeWhile_imp (List.mem_reverse.mp member)
  · rw [trimRight, ← List.reverse_append, List.takeWhile_append_dropWhile, List.reverse_reverse]

/-- What is taken away from a text are the suffixes at its end. -/
theorem peelArrays_isArrayTail (cs : List Char) :
    ∃ tail, cs = (peelArrays cs).1 ++ tail ∧ IsArrayTail (peelArrays cs).2 tail := by
  fun_induction peelArrays cs with
  | case1 cs found element dimensions peeled ih =>
    obtain ⟨body, rfl⟩ := exists_of_hasSuffix found
    have front : beforeSuffix (body ++ arraySuffix) = body := beforeSuffix_append body '[' ']'
    rw [front] at peeled ih
    simp only [peeled] at ih
    obtain ⟨tail, split, behind⟩ := ih
    -- Each step takes away a suffix and the white space that it uncovers.
    obtain ⟨blanks, blank, trimmed⟩ := exists_blanks body
    refine ⟨tail ++ blanks ++ arraySuffix, ?_, .suffix behind blank⟩
    conv_lhs => rw [trimmed, split]
    simp
  | case2 cs _ => exact ⟨[], by simp, .nothing⟩

/-- No suffix is left behind the element. -/
theorem peelArrays_bare (cs : List Char) : hasSuffix arraySuffix (peelArrays cs).1 = false := by
  fun_induction peelArrays cs with
  | case1 cs found element dimensions peeled ih =>
    simp only [peeled] at ih
    exact ih
  | case2 cs bare => simpa using bare

theorem trim_peelArrays (trimmed : trim cs = cs) :
    trim (peelArrays cs).1 = (peelArrays cs).1 := by
  fun_induction peelArrays cs with
  | case1 cs found element dimensions peeled ih =>
    obtain ⟨body, rfl⟩ := exists_of_hasSuffix found
    have front : beforeSuffix (body ++ arraySuffix) = body := beforeSuffix_append body '[' ']'
    have left : trimLeft body = body := by
      have whole : trim (body ++ arraySuffix) = trimLeft body ++ arraySuffix :=
        trim_append_suffix rfl rfl (by decide) (by decide) body
      exact List.append_cancel_right (whole.symm.trans trimmed)
    rw [front] at peeled ih
    simp only [peeled] at ih
    -- The text in front of a suffix starts like the whole one, so it is trimmed on both sides.
    apply ih
    have both : trimRight body = trim body := by rw [trim, left]
    rw [both, trim_trim]
  | case2 cs _ => exact trimmed

/-! ### Arrays in front of suffixes -/

theorem not_isBlank_of_trim_eq (trimmed : trim cs = cs) {c : Char} (last : cs.getLast? = some c) :
    isBlank c = false := by
  have nonempty : trim cs ≠ [] := by
    rw [trimmed]
    rintro rfl
    cases last
  have solid : ¬ isBlank ((trim cs).getLast nonempty) = true :=
    List.rdropWhile_last_not isBlank (trimLeft cs) nonempty
  have same : (trim cs).getLast nonempty = c := by
    rw [← Option.some.injEq, ← List.getLast?_eq_getLast_of_ne_nil, trimmed, last]
  simpa [same] using solid

/-- A text that does not end with white space is trimmed on the left only, and ends as before. -/
theorem trim_eq_trimLeft {c : Char} (last : cs.getLast? = some c) (solid : isBlank c = false) :
    trim cs = trimLeft cs ∧ (trimLeft cs).getLast? = some c := by
  obtain ⟨front, rfl⟩ := List.getLast?_eq_some_iff.mp last
  have ends : (trimLeft (front ++ [c])).getLast? = some c := by
    simp only [trimLeft, List.dropWhile_append]
    split <;> simp [solid]
  exact ⟨trimRight_append solid [] ends, ends⟩

/-- A text that ends with no bar ends with the text of a member, the last one of the union. -/
theorem exists_lastMember (trimmed : trim cs = cs) (bar : '|' ∈ cs) :
    cs.getLast? = some '|' ∨
      ∃ text, trim text = text ∧ text.length < cs.length ∧ text.IsSuffix cs ∧
        text.getLast? = cs.getLast? ∧ parseChars text ∈ (unionPieces cs).map parseChars := by
  -- From the end of the text, the bar is the first one.
  obtain ⟨back, front, split, absent⟩ := List.eq_append_cons_of_mem (List.mem_reverse.mpr bar)
  have cut : cs = front.reverse ++ '|' :: back.reverse := by
    rw [← List.reverse_reverse cs, split]
    simp
  have pieces : splitAt '|' cs = splitAt '|' front.reverse ++ [back.reverse] := by
    rw [cut, splitAt_append_separator]
    exact congrArg _ (splitAt_of_not_mem (by simpa using absent))
  cases back with
  | nil => exact .inl (by simp [cut])
  | cons c rest =>
    have last : cs.getLast? = some c := by
      rw [List.getLast?_eq_head?_reverse, split]
      rfl
    have solid := not_isBlank_of_trim_eq trimmed last
    have last' : (c :: rest).reverse.getLast? = some c := by simp
    obtain ⟨left, ends⟩ := trim_eq_trimLeft last' solid
    have listed : (c :: rest).reverse ∈ unionPieces cs := by
      simp [unionPieces, pieces, isBlankText, solid]
    have behind : (trimLeft (c :: rest).reverse).IsSuffix ('|' :: (c :: rest).reverse) :=
      (List.dropWhile_suffix isBlank).trans (List.suffix_cons _ _)
    refine .inr ⟨trim (c :: rest).reverse, trim_trim _, ?_, ?_, by rw [left, ends, last], ?_⟩
    · exact Nat.lt_of_le_of_lt (length_trim_le _)
        (length_lt_of_mem_splitAt bar (List.mem_filter.mp listed).1)
    · rw [left, cut]
      exact behind.trans (List.suffix_append _ _)
    · rw [parseChars_trim]
      exact List.mem_map_of_mem listed

theorem isArray_ofMembers {raw : String} {members : List TypeExpr}
    (array : (ofMembers raw members).isArray = true) :
    ∃ member, members = [member] ∧ member.isArray = true := by
  match members, array with
  | [member], array => exact ⟨member, rfl, array⟩

/-- Only behind a parenthesis or a bar an array is not counted along with the suffixes. -/
theorem endsShut_of_isArray (trimmed : trim cs = cs) (bare : hasSuffix arraySuffix cs = false)
    (array : (parseChars cs).isArray = true) : EndsShut cs := by
  -- On the length of the text, since a union of one member is what its last piece is.
  induction size : cs.length using Nat.strong_induction_on generalizing cs with
  | _ bound ih =>
    cases enclosed : isEnclosed cs with
    | true =>
      simp only [isEnclosed, Bool.and_eq_true, beq_iff_eq] at enclosed
      exact .inl enclosed.1.2
    | false =>
      -- The text is its own core, has no array suffix and is no name, so it is a union.
      have whole : core cs = cs := core_eq_self trimmed enclosed
      rw [parseChars_eq, whole, if_neg (by simp [bare])] at array
      split at array
      · cases array
      · split at array
        next union =>
          -- The only member is the last one too, and it ends where the text does.
          obtain ⟨member, single, array'⟩ := isArray_ofMembers array
          rcases exists_lastMember trimmed (mem_of_hasInside union) with
            shut | ⟨text, trimmed', shorter, behind, last, listed⟩
          · exact .inr shut
          have read : parseChars text = member := by rwa [single, List.mem_singleton] at listed
          have bare' : hasSuffix arraySuffix text = false := by
            by_contra found
            have within := List.isSuffixOf_iff_suffix.mp (Bool.not_eq_false _ ▸ found)
            have found' : hasSuffix arraySuffix cs = true :=
              List.isSuffixOf_iff_suffix.mpr (within.trans behind)
            cases bare.symm.trans found'
          have shut := ih _ (size ▸ shorter) trimmed' bare' (read ▸ array') rfl
          rwa [EndsShut, last] at shut
        · unfold ofName at array
          split at array <;> cases array

/-- An array that was read is cut where the suffixes at the end of its text begin. -/
theorem exists_of_parseChars_array {raw : String} {dimensions : Nat} {element : TypeExpr}
    (read : parseChars cs = .array raw dimensions element) :
    ∃ text, trim text = text ∧ raw = String.ofList text ∧ dimensions = (peelArrays text).2 ∧
      element = parseChars (peelArrays text).1 := by
  -- On the length of the text, since a union of one member stands for a shorter text.
  induction size : cs.length using Nat.strong_induction_on generalizing cs with
  | _ bound ih =>
    rw [parseChars_eq] at read
    split at read
    · cases read
      exact ⟨core cs, trim_stripParens _ (trim_trim cs), rfl, rfl, rfl⟩
    · split at read
      · cases read
      · split at read
        next union =>
          have shorter := length_lt_of_mem_unionPieces union
          match unionPieces (core cs), shorter, read with
          | [piece], shorter, read =>
            exact ih piece.length (size ▸ shorter piece (by simp)) read rfl
        · unfold ofName at read
          split at read <;> cases read

/-- An array of arrays is written as an array that ends shut and the suffixes behind it. -/
theorem IsParsed.exists_inner {raw : String} {dimensions : Nat} {element : TypeExpr}
    (read : (array raw dimensions element).IsParsed) (nested : element.isArray = true) :
    ∃ inner tail : List Char, raw.toList = inner ++ tail ∧ IsArrayTail dimensions tail ∧
      parse (String.ofList inner) = element ∧ EndsShut inner := by
  obtain ⟨text, parsed⟩ := read
  obtain ⟨cs, trimmed, rfl, rfl, rfl⟩ := exists_of_parseChars_array parsed
  obtain ⟨tail, split, behind⟩ := peelArrays_isArrayTail cs
  refine ⟨(peelArrays cs).1, tail, ?_, behind, ?_, ?_⟩
  · rw [String.toList_ofList]
    exact split
  · rw [parse, String.toList_ofList]
  · exact endsShut_of_isArray (trim_peelArrays trimmed) (peelArrays_bare cs) nested

/-- Behind whatever text, several suffixes make an array of several dimensions. -/
theorem IsArrayTail.parse_append {count : Nat} {tail : List Char} (behind : IsArrayTail count tail)
    (several : 1 < count) (text : String) :
    ∃ raw dimensions element,
      parse (text ++ String.ofList tail) = .array raw dimensions element ∧ 1 < dimensions := by
  cases behind with
  | nothing => exact absurd several (by decide)
  | @suffix count front blanks before blank =>
    have counted := before.le_peelArrays text.toList
    rw [← trim_append_blanks blank, List.append_assoc] at counted
    rw [parse, String.toList_append, String.toList_ofList, ← List.append_assoc,
      parseChars_append_arraySuffix]
    exact ⟨_, _, _, rfl, by omega⟩

theorem EndsShut.hasSuffix_eq_false (shut : EndsShut cs) : hasSuffix arraySuffix cs = false := by
  by_contra found
  obtain ⟨body, rfl⟩ := exists_of_hasSuffix (Bool.not_eq_false _ ▸ found)
  simp [EndsShut, arraySuffix] at shut

theorem endsShut_trim (shut : EndsShut cs) : EndsShut (trim cs) := by
  have ends {c : Char} (last : cs.getLast? = some c) (solid : isBlank c = false) :
      (trim cs).getLast? = some c := by
    obtain ⟨left, last'⟩ := trim_eq_trimLeft last solid
    rw [left, last']
  exact shut.imp (ends · (by decide)) (ends · (by decide))

/-- Behind a text that ends shut the count starts anew. -/
theorem EndsShut.parse_append {text : String} (shut : EndsShut text.toList) {tail : List Char}
    (behind : IsArrayTail 1 tail) :
    ∃ raw, parse (text ++ String.ofList tail) = .array raw 1 (parse text) := by
  have uncounted : peelArrays (trim text.toList) = (trim text.toList, 0) :=
    peelArrays_of_not_hasSuffix (endsShut_trim shut).hasSuffix_eq_false
  cases behind with
  | @suffix _ front blanks before blank =>
    -- There is nothing but white space in front of a single suffix.
    cases before
    rw [parse, String.toList_append, String.toList_ofList, ← List.append_assoc,
      parseChars_append_arraySuffix, List.nil_append, trim_append_blanks blank, uncounted, parse]
    exact ⟨_, congrArg _ (parseChars_trim _)⟩

end TypeExpr

namespace TypeMapper

variable {m : TypeMapper}

/-- What a part of an expression is mapped to is a part of what the expression is mapped to. -/
theorem MapsTo.target_of_isPart {part type : TypeExpr} (inside : part.IsPart type)
    {target : TargetType} (form : m.MapsTo type target) :
    ∃ target' : TargetType, target'.IsPart target ∧ m.MapsTo part target' := by
  induction inside generalizing target with
  | self => exact ⟨target, .self, form⟩
  | within listed _ ih =>
    cases form with
    | builtIn => cases listed
    | object => cases listed
    | list form' =>
      cases List.mem_singleton.mp listed
      obtain ⟨target', inside', found⟩ := ih form'
      exact ⟨target', .within (List.mem_singleton.mpr rfl) inside', found⟩
    | union each =>
      obtain ⟨operand', listed', form'⟩ := exists_of_mem_left each listed
      obtain ⟨target', inside', found⟩ := ih form'
      exact ⟨target', .within listed' inside', found⟩

theorem MapsTo.isArray_iff {type : TypeExpr} {target : TargetType} (form : m.MapsTo type target) :
    type.isArray = true ↔ target.isList = true := by
  cases form <;> simp [TypeExpr.isArray, TargetType.isList]

/-- A list of lists is what an array of arrays is mapped to, and nothing else. -/
theorem exists_nestedList_iff (plain : KnowsNames m.primitive?) {type : TypeExpr}
    (read : type.IsParsed) {target : TargetType} (mapped : (m.mapType type).outcome = .ok target) :
    (∃ element, element.isList = true ∧ (TargetType.listOf element).IsPart target) ↔
      ∃ raw dimensions element,
        element.isArray = true ∧ (TypeExpr.array raw dimensions element).IsPart type := by
  constructor
  · rintro ⟨element, nested, inside⟩
    obtain ⟨source, inside', mapped'⟩ := source_of_isPart inside mapped
    cases mapsTo_of_mapType plain (read.part inside') mapped' with
    | list form => exact ⟨_, _, _, form.isArray_iff.mpr nested, inside'⟩
  · rintro ⟨raw, dimensions, element, nested, inside⟩
    obtain ⟨target', inside', form⟩ :=
      (mapsTo_of_mapType plain read mapped).target_of_isPart inside
    cases form with
    | list form' => exact ⟨_, form'.isArray_iff.mp nested, inside'⟩

end TypeMapper

namespace TypeGraph

/-- A mapped type text has a list of lists exactly if its expression has an array of arrays. An
array is only the element of another one if its text ends with a closing parenthesis or a bar in
front of the suffixes of the other, as suffixes behind each other are one array. An array of several
of them is refused, whatever it stands behind. With a single one behind it, a text that ends shut is
mapped to a list of what it is mapped to alone, be that a list or not. -/
theorem mapType_nestedLists {profile : Profile} (known : profile ∈ Profile.all) (g : TypeGraph)
    (universal text : String) :
    (∀ target, ((profile.mapper g universal).mapType (.parse text)).outcome = .ok target →
      ((∃ element, element.isList = true ∧ (TargetType.listOf element).IsPart target) ↔
        ∃ raw dimensions element,
          element.isArray = true ∧ (TypeExpr.array raw dimensions element).IsPart (.parse text))) ∧
    (∀ raw dimensions element, element.isArray = true →
      (TypeExpr.array raw dimensions element).IsPart (.parse text) →
        ∃ inner tail : List Char, raw.toList = inner ++ tail ∧
          TypeExpr.IsArrayTail dimensions tail ∧
          TypeExpr.parse (String.ofList inner) = element ∧ TypeExpr.EndsShut inner) ∧
    (∀ count tail, 1 < count → TypeExpr.IsArrayTail count tail →
      ((profile.mapper g universal).mapType (.parse (text ++ String.ofList tail))).outcome =
        .error (.mapping (.unsupported .nestedArray
          (TypeExpr.parse (text ++ String.ofList tail)).raw))) ∧
    ∀ tail, TypeExpr.EndsShut text.toList → TypeExpr.IsArrayTail 1 tail →
      ((profile.mapper g universal).mapType (.parse (text ++ String.ofList tail))).outcome =
        ((profile.mapper g universal).mapType (.parse text)).outcome.map .listOf := by
  have plain : KnowsNames (profile.mapper g universal).primitive? := Profile.knowsNames known
  refine ⟨fun target mapped => ?_, fun raw dimensions element nested inside => ?_,
    fun count tail several behind => ?_, fun tail shut behind => ?_⟩
  · exact TypeMapper.exists_nestedList_iff plain ⟨text, rfl⟩ mapped
  · exact (TypeExpr.IsParsed.part ⟨text, rfl⟩ inside).exists_inner nested
  · obtain ⟨raw, dimensions, element, read, several'⟩ := behind.parse_append several text
    have unknown : (profile.mapper g universal).primitive? raw = none :=
      plain.eq_none ⟨_, read⟩ (by simp)
    simp [read, TypeMapper.mapType, unknown, several', TypeExpr.raw]
  · obtain ⟨raw, read⟩ := shut.parse_append behind
    have unknown : (profile.mapper g universal).primitive? raw = none :=
      plain.eq_none ⟨_, read⟩ (by simp)
    rw [read, TypeMapper.mapType, unknown]
    cases alone : ((profile.mapper g universal).mapType (.parse text)).outcome <;>
      simp [alone, Except.map]

/-- A list of lists of cats beside a dog comes from an array that ends shut, and the same cats are
refused with the suffixes behind each other. -/
theorem mapType_nestedLists_cats :
    Profile.java ∈ Profile.all ∧
      (∃ raw dimensions element, element.isArray = true ∧
        (TypeExpr.array raw dimensions element).IsPart (.parse "(Cat[])[] | Dog") ∧
        ∃ inner tail : List Char, raw.toList = inner ++ tail ∧
          TypeExpr.IsArrayTail dimensions tail ∧
          TypeExpr.parse (String.ofList inner) = element ∧ TypeExpr.EndsShut inner) ∧
      1 < 2 ∧ TypeExpr.IsArrayTail 2 ['[', ']', ' ', '[', ']'] ∧
      ((Profile.java.mapper petGraph "Object").mapType
        (.parse ("Cat" ++ String.ofList ['[', ']', ' ', '[', ']']))).outcome =
          .error (.mapping (.unsupported .nestedArray
            (TypeExpr.parse ("Cat" ++ String.ofList ['[', ']', ' ', '[', ']'])).raw)) ∧
      TypeExpr.EndsShut "(Cat[])".toList ∧ TypeExpr.IsArrayTail 1 ['[', ']'] ∧
      ((Profile.java.mapper petGraph "Object").mapType
        (.parse ("(Cat[])" ++ String.ofList ['[', ']']))).outcome =
          .ok (.listOf (.listOf (.objectRef "Cat"))) := by
  have known : Profile.java ∈ Profile.all := by simp [Profile.all]
  obtain ⟨both, written, _, _⟩ := mapType_nestedLists known petGraph "Object" "(Cat[])[] | Dog"
  obtain ⟨_, _, refused, _⟩ := mapType_nestedLists known petGraph "Object" "Cat"
  obtain ⟨_, _, _, alone⟩ := mapType_nestedLists known petGraph "Object" "(Cat[])"
  have mapped : ((Profile.java.mapper petGraph "Object").mapType
      (.parse "(Cat[])[] | Dog")).outcome =
        .ok (.unionOf "Object" [.listOf (.listOf (.objectRef "Cat")), .objectRef "Dog"]) := by
    cbv
  have mapped' : ((Profile.java.mapper petGraph "Object").mapType (.parse "(Cat[])")).outcome =
      .ok (.listOf (.objectRef "Cat")) := by
    cbv
  have inside : (TargetType.listOf (.listOf (.objectRef "Cat"))).IsPart
      (.unionOf "Object" [.listOf (.listOf (.objectRef "Cat")), .objectRef "Dog"]) :=
    .within List.mem_cons_self .self
  obtain ⟨raw, dimensions, element, nested, inside'⟩ := (both _ mapped).mp ⟨_, rfl, inside⟩
  have one : TypeExpr.IsArrayTail 1 ['[', ']'] :=
    @TypeExpr.IsArrayTail.suffix 0 [] [] .nothing (by simp)
  have two : TypeExpr.IsArrayTail 2 ['[', ']', ' ', '[', ']'] :=
    @TypeExpr.IsArrayTail.suffix 1 _ [' '] one (by simp; rfl)
  have shut : TypeExpr.EndsShut "(Cat[])".toList := .inl (by decide)
  have behind := alone _ shut one
  rw [mapped'] at behind
  exact ⟨known, ⟨raw, dimensions, element, nested, inside', written _ _ _ nested inside'⟩,
    by decide, two, refused 2 _ (by decide) two, shut, one, behind⟩

/-- An array in parentheses or alone in front of a bar is the element of another one in a graph
without cycles, so that a list of lists is mapped. -/
theorem nestedLists_mapped :
    petGraph.Acyclic ∧ Profile.java ∈ Profile.all ∧
      ((Profile.java.mapper petGraph "Object").mapType (.parse "(Cat[])[]")).outcome =
        .ok (.listOf (.listOf (.objectRef "Cat"))) ∧
      ((Profile.java.mapper petGraph "Object").mapType (.parse "Cat[] | []")).outcome =
        .ok (.listOf (.listOf (.objectRef "Cat"))) :=
  ⟨petGraph_acyclic, by simp [Profile.all], by cbv, by cbv⟩

end TypeGraph

end RamlTypes
