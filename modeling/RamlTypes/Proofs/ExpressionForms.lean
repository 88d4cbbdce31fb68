import RamlTypes.Proofs.Dispatching
import RamlTypes.Proofs.LastSegments
import RamlTypes.Proofs.NestedLists

/-!
# Forms of expressions

The tests that reading makes come in a fixed order, so the text of an expression tells what kind of
expression it is. A text is cut at all of its bars at once, hence the members of a union have no
union inside, and a text with bars has one union only. Texts of members may be blank, but the one in
front of the first bar never is; of a single member that is left, no union is made. All this holds
of texts whose parentheses do not match as well.
-/
namespace RamlTypes.TypeExpr

open Text

/-- No white space stands at the ends of the text, and no pair of parentheses that belong together
encloses it. -/
structure IsTidy (cs : List Char) : Prop where
  first : ∀ c, cs.head? = some c → isBlank c = false
  last : ∀ c, cs.getLast? = some c → isBlank c = false
  ungrouped : ∀ inside, Balanced inside → cs ≠ '(' :: (inside ++ [')'])

/-- What the kind of an expression says about its text and its operands. -/
inductive HasForm : TypeExpr → Prop where
  | bare {name : String} : HasForm (.named name name "")
  | qualified {qualifier name : String} (nonempty : qualifier ≠ "") :
      HasForm (.named (qualifier ++ "." ++ name) name qualifier)
  | array {raw : String} {dimensions : Nat} {element : TypeExpr} (positive : 1 ≤ dimensions)
      (nested : element.isArray = true → ∃ inner tail : List Char,
        raw.toList = inner ++ tail ∧ IsArrayTail dimensions tail ∧ EndsShut inner) :
      HasForm (.array raw dimensions element)
  | map {raw : String} {value : TypeExpr} : HasForm (.map raw value)
  | union {raw : String} {members : List TypeExpr} (several : 2 ≤ members.length)
      (flat : ∀ member ∈ members, ∀ raw' members', ¬ IsPart (.union raw' members') member) :
      HasForm (.union raw members)

variable {cs : List Char}

/-! ### Reading by the core -/

theorem not_isBlank_of_head? (trimmed : trim cs = cs) {c : Char} (first : cs.head? = some c) :
    isBlank c = false := by
  have nonempty : trimLeft cs ≠ [] := by
    intro empty
    rw [← trimmed, trim, empty] at first
    cases first
  have same : trimLeft cs = cs := by
    have front : (trim cs).IsPrefix (trimLeft cs) := List.rdropWhile_prefix isBlank (trimLeft cs)
    rw [trimmed] at front
    exact (List.dropWhile_suffix isBlank).eq_of_length_le front.length_le
  have solid : isBlank ((trimLeft cs).head nonempty) = false :=
    List.head_dropWhile_not isBlank nonempty
  have found : (trimLeft cs).head nonempty = c := by
    rw [← Option.some.injEq, ← List.head?_eq_some_head, same, first]
  rwa [found] at solid

/-- The text in front of the first bar is no blank one. -/
theorem unionPieces_ne_nil (trimmed : trim cs = cs) (bar : hasInside '|' cs = true) :
    unionPieces cs ≠ [] := by
  cases cs with
  | nil => simp [hasInside] at bar
  | cons c rest =>
    have solid : isBlank c = false := not_isBlank_of_head? trimmed rfl
    have other : c ≠ '|' := by
      rintro rfl
      simp [hasInside] at bar
    obtain ⟨first, pieces, split⟩ := exists_splitAt '|' rest
    simp [unionPieces, splitAt_cons_other other split, isBlankText, solid]

/-- Every expression that is read is read from a core, in one of four ways: a union of one member is
that member, and was read from a shorter text. -/
theorem parsed_induction {motive : TypeExpr → Prop}
    (array : ∀ cs, core cs = cs → hasSuffix arraySuffix cs = true →
      motive (parseChars (peelArrays cs).1) →
      motive (.array (String.ofList cs) (peelArrays cs).2 (parseChars (peelArrays cs).1)))
    (map : ∀ cs, core cs = cs → hasSuffix mapSuffix cs = true →
      motive (parseChars (beforeSuffix cs)) →
      motive (.map (String.ofList cs) (parseChars (beforeSuffix cs))))
    (union : ∀ cs, core cs = cs → hasInside '|' cs = true → 2 ≤ (unionPieces cs).length →
      (∀ piece ∈ unionPieces cs, motive (parseChars piece)) →
      motive (.union (String.ofList cs) ((unionPieces cs).map parseChars)))
    (name : ∀ cs, core cs = cs → motive (ofName cs)) (text : List Char) :
    motive (parseChars text) := by
  -- On the length: each operand is read from a shorter text than the core.
  induction size : text.length using Nat.strong_induction_on generalizing text with
  | _ bound ih =>
    have whole := core_core text
    have bounded := length_core_le text
    rw [parseChars_eq]
    split_ifs with suffixed suffixed' bar
    · have shorter := length_peelArrays_lt suffixed
      exact array _ whole suffixed (ih _ (by omega) _ rfl)
    · have shorter := length_beforeSuffix_lt (.inr suffixed')
      exact map _ whole suffixed' (ih _ (by omega) _ rfl)
    · have each : ∀ piece ∈ unionPieces (core text), motive (parseChars piece) :=
        fun piece member => ih _ (size ▸ length_lt_of_mem_unionPieces bar piece member) _ rfl
      have some_piece := unionPieces_ne_nil (trim_stripParens _ (trim_trim text)) bar
      have several := union _ whole bar
      -- The number of pieces that are left decides whether there is a union at all.
      match pieces : unionPieces (core text), some_piece with
      | [piece], _ =>
        rw [pieces] at each
        exact each piece List.mem_cons_self
      | first :: second :: rest, _ =>
        rw [pieces] at several each
        exact several (by simp) each
    · exact name _ whole

/-! ### Unions -/

theorem mem_of_mem_peelArrays {c : Char} (member : c ∈ (peelArrays cs).1) : c ∈ cs := by
  obtain ⟨tail, split, _⟩ := peelArrays_isArrayTail cs
  rw [split]
  exact List.mem_append_left tail member

theorem mem_of_mem_beforeSuffix {c : Char} (member : c ∈ beforeSuffix cs) : c ∈ cs :=
  List.mem_of_mem_dropLast (List.mem_of_mem_dropLast member)

theorem not_mem_of_mem_splitAt {separator : Char} {piece : List Char}
    (member : piece ∈ splitAt separator cs) : separator ∉ piece := by
  induction cs generalizing piece with
  | nil => simp_all [splitAt]
  | cons c cs ih =>
    obtain ⟨first, rest, split⟩ := exists_splitAt separator cs
    by_cases same : c = separator
    · simp only [splitAt, if_pos same, List.mem_cons] at member
      rcases member with rfl | later
      · simp
      · exact ih later
    · rw [splitAt_cons_other same split] at member
      rcases List.mem_cons.mp member with rfl | later
      · have apart : separator ∉ first := ih (by simp [split])
        simp [apart, Ne.symm same]
      · exact ih (by simp [split, later])

theorem unions_ofName (cs : List Char) : (ofName cs).unions = [] := by
  unfold ofName
  split <;> rfl

/-- Where there is no bar, there is no union. -/
theorem unions_of_noBar (noBar : '|' ∉ cs) : (parseChars cs).unions = [] := by
  induction size : cs.length using Nat.strong_induction_on generalizing cs with
  | _ bound ih =>
    have noBar' : '|' ∉ core cs := mt mem_of_mem_core noBar
    have bounded := length_core_le cs
    rw [parseChars_eq]
    split_ifs with suffixed suffixed' bar
    · have shorter := length_peelArrays_lt suffixed
      exact ih _ (by omega) (mt mem_of_mem_peelArrays noBar') rfl
    · have shorter := length_beforeSuffix_lt (.inr suffixed')
      exact ih _ (by omega) (mt mem_of_mem_beforeSuffix noBar') rfl
    · exact absurd (mem_of_hasInside bar) noBar'
    · exact unions_ofName _

/-- A piece between bars has no union inside. -/
theorem unions_of_mem_unionPieces {piece : List Char} (member : piece ∈ unionPieces cs) :
    (parseChars piece).unions = [] :=
  unions_of_noBar (not_mem_of_mem_splitAt (List.mem_filter.mp member).1)

/-- All members of a union are cut out at once, so there is no second one. -/
theorem length_unions_le (text : List Char) : (parseChars text).unions.length ≤ 1 := by
  refine parsed_induction (motive := fun expr => expr.unions.length ≤ 1) ?array ?map ?union ?name
    text
  case array => exact fun cs _ _ ih => ih
  case map => exact fun cs _ _ ih => ih
  case union =>
    intro cs _ _ _ _
    -- Splitting takes all bars away, those in parentheses too.
    have none : unionsOfAll ((unionPieces cs).map parseChars) = [] := by
      rw [unionsOfAll_eq, List.flatMap_eq_nil_iff]
      intro expr member
      obtain ⟨piece, listed, rfl⟩ := List.mem_map.mp member
      exact unions_of_mem_unionPieces listed
    simp [unions, none]
  case name => exact fun cs _ => by simp [unions_ofName]

/-! ### Texts -/

/-- Nothing that could be removed is left around the text of an expression. -/
theorem isTidy_of_core (whole : core cs = cs) : IsTidy cs := by
  have trimmed : trim cs = cs := by
    rw [← whole]
    exact trim_stripParens _ (trim_trim cs)
  have bare : isEnclosed cs = false := by
    rw [← whole]
    exact isEnclosed_stripParens _
  refine ⟨fun c => not_isBlank_of_head? trimmed, fun c => not_isBlank_of_trim_eq trimmed, ?_⟩
  rintro inside balanced rfl
  cases balanced.isEnclosed_group.symm.trans bare

theorem hasForm_ofName (cs : List Char) : (ofName cs).HasForm := by
  obtain ⟨name, qualifier, same, splits⟩ := ofName_splitsAtDot cs
  rw [same]
  generalize String.ofList cs = raw at splits
  cases splits with
  | whole => exact .bare
  | dotted qualified => exact .qualified qualified

theorem parsed_hasForm (text : List Char) :
    (parseChars text).HasForm ∧ IsTidy (parseChars text).raw.toList := by
  refine parsed_induction (motive := fun expr => expr.HasForm ∧ IsTidy expr.raw.toList)
    ?array ?map ?union ?name text
  case array =>
    intro cs whole suffixed _
    refine ⟨.array ?_ fun nested => ?_, ?_⟩
    · rw [peelArrays, dif_pos suffixed]
      exact Nat.succ_pos _
    · have read : IsParsed (.array (String.ofList cs) (peelArrays cs).2
          (parseChars (peelArrays cs).1)) := by
        refine ⟨String.ofList cs, ?_⟩
        rw [parse, String.toList_ofList, parseChars_eq, whole, if_pos suffixed]
      obtain ⟨inner, tail, split, behind, _, shut⟩ := read.exists_inner nested
      exact ⟨inner, tail, split, behind, shut⟩
    · rw [raw, String.toList_ofList]
      exact isTidy_of_core whole
  case map =>
    intro cs whole suffixed _
    rw [raw, String.toList_ofList]
    exact ⟨.map, isTidy_of_core whole⟩
  case union =>
    intro cs whole bar several _
    refine ⟨.union (by simpa using several) ?_, ?_⟩
    · intro member listed raw' members' inside
      obtain ⟨piece, found, rfl⟩ := List.mem_map.mp listed
      have occurs := mem_unions_iff.mpr inside
      rw [unions_of_mem_unionPieces found] at occurs
      cases occurs
    · rw [raw, String.toList_ofList]
      exact isTidy_of_core whole
  case name =>
    intro cs whole
    rw [raw_ofName, String.toList_ofList]
    exact ⟨hasForm_ofName cs, isTidy_of_core whole⟩

/-- Whatever the text, each part of the expression has the form of its kind and a text that nothing
stands around, and there is at most one union among the parts. -/
theorem parse_hasForm (text : String) :
    (parse text).unions.length ≤ 1 ∧
      ∀ part : TypeExpr, part.IsPart (parse text) → part.HasForm ∧ IsTidy part.raw.toList := by
  refine ⟨length_unions_le text.toList, fun part inside => ?_⟩
  obtain ⟨text', rfl⟩ := IsParsed.part ⟨text, rfl⟩ inside
  exact parsed_hasForm text'.toList

/-- An array of an array: there is an empty member behind the bar, which has a suffix of its own. -/
def crateLists : TypeExpr :=
  .array "lib.Crate[] | []" 1 (.array "lib.Crate[]" 1 (.named "lib.Crate" "Crate" "lib"))

theorem parse_hasForm_crates :
    parse "(lib.Crate[] | [])\x7b\x7d" = .map "(lib.Crate[] | [])\x7b\x7d" crateLists ∧
      crateLists.IsPart (parse "(lib.Crate[] | [])\x7b\x7d") ∧
      crateLists.HasForm ∧ IsTidy crateLists.raw.toList := by
  have read : parse "(lib.Crate[] | [])\x7b\x7d" =
      .map "(lib.Crate[] | [])\x7b\x7d" crateLists := by
    cbv
  have inside : crateLists.IsPart (parse "(lib.Crate[] | [])\x7b\x7d") := by
    rw [read]
    exact .within (List.mem_singleton.mpr rfl) .self
  exact ⟨read, inside, (parse_hasForm _).2 crateLists inside⟩

end RamlTypes.TypeExpr
