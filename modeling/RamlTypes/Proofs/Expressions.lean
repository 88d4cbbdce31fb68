import Mathlib.Data.List.DropRight
import RamlTypes.TypeExpr.Parser

/-!
# Canonical texts of expressions

The text that an expression keeps has nothing around it that reading would remove, so reading it
again gives the same expression. Two expressions that were read and have the same text are
therefore equal, however different the texts were that they were read from.
-/
namespace RamlTypes

namespace Text

theorem trim_trim (cs : List Char) : trim (trim cs) = trim cs := by
  -- Trimming on the right leaves the start as it is, and that is not blank.
  have left : trimLeft (trim cs) = trim cs := by
    refine List.dropWhile_eq_self_iff.mpr fun nonempty => ?_
    have start : (trim cs).IsPrefix (trimLeft cs) := List.rdropWhile_prefix isBlank (trimLeft cs)
    rw [start.getElem nonempty]
    exact List.dropWhile_get_zero_not isBlank cs _
  have right : trimRight (trim cs) = trim cs := List.rdropWhile_idempotent isBlank (trimLeft cs)
  rw [trim, left, right]

end Text

namespace TypeExpr

open Text

theorem referencedNamesOfAll_eq (exprs : List TypeExpr) :
    referencedNamesOfAll exprs = exprs.flatMap referencedNames := by
  induction exprs with
  | nil => rfl
  | cons expr rest ih => rw [referencedNamesOfAll, ih, List.flatMap_cons]

theorem trim_stripParens (cs : List Char) (trimmed : trim cs = cs) :
    trim (stripParens cs) = stripParens cs := by
  fun_induction stripParens cs with
  -- What stands between parentheses is trimmed before it is looked at again.
  | case1 cs _ ih => exact ih (trim_trim _)
  | case2 cs _ => exact trimmed

theorem isEnclosed_stripParens (cs : List Char) : isEnclosed (stripParens cs) = false := by
  fun_induction stripParens cs with
  | case1 cs _ ih => exact ih
  | case2 cs bare => simpa using bare

/-- There is nothing left to remove around a core. -/
theorem core_core (cs : List Char) : core (core cs) = core cs := by
  have bare : stripParens (core cs) = core cs := by
    rw [stripParens, core, isEnclosed_stripParens]
    rfl
  rw [core, core, trim_stripParens _ (trim_trim cs)]
  exact bare

/-- What a text is read as, by its core. -/
theorem parseChars_eq (cs : List Char) :
    parseChars cs =
      if hasSuffix arraySuffix (core cs) = true then
        .array (String.ofList (core cs)) (peelArrays (core cs)).2
          (parseChars (peelArrays (core cs)).1)
      else if hasSuffix mapSuffix (core cs) = true then
        .map (String.ofList (core cs)) (parseChars (beforeSuffix (core cs)))
      else if hasInside '|' (core cs) = true then
        ofMembers (String.ofList (core cs)) ((unionPieces (core cs)).map parseChars)
      else ofName (core cs) := by
  rw [parseChars]
  simp only [dite_eq_ite, List.map_subtype, List.unattach_attach]

/-- Only the core of a text decides what it is read as. -/
theorem parseChars_congr {cs ds : List Char} (same : core cs = core ds) :
    parseChars cs = parseChars ds := by
  rw [parseChars_eq cs, parseChars_eq ds, same]

theorem parseChars_trim (cs : List Char) : parseChars (trim cs) = parseChars cs :=
  parseChars_congr (by rw [core, core, trim_trim])

theorem raw_ofName (cs : List Char) : (ofName cs).raw = String.ofList cs := by
  unfold ofName
  split <;> rfl

/-- A bar is cut away, so no piece of a union is the whole text again. -/
theorem length_lt_of_mem_unionPieces {cs : List Char} (union : hasInside '|' (core cs) = true) :
    ∀ piece ∈ unionPieces (core cs), piece.length < cs.length := by
  intro piece member
  have := length_lt_of_mem_splitAt (mem_of_hasInside union) (List.mem_filter.mp member).1
  exact Nat.lt_of_lt_of_le this (length_core_le cs)

/-- An expression is known by the core of its text, unless the text is a union of a single member,
which stands for that member alone. -/
theorem raw_parseChars (cs : List Char) :
    (parseChars cs).raw = String.ofList (core cs) ∨
      ∃ piece, piece.length < cs.length ∧ parseChars cs = parseChars piece := by
  rw [parseChars_eq]
  split
  · exact .inl rfl
  · split
    · exact .inl rfl
    · split
      next union =>
        have shorter := length_lt_of_mem_unionPieces union
        match unionPieces (core cs), shorter with
        | [], _ => exact .inl rfl
        | [piece], shorter => exact .inr ⟨piece, shorter piece (by simp), rfl⟩
        | _ :: _ :: _, _ => exact .inl rfl
      · exact .inl (raw_ofName _)

theorem parse_raw_parseChars (cs : List Char) : parse (parseChars cs).raw = parseChars cs := by
  -- On the length of the text, since a union of one member stands for a shorter text.
  induction size : cs.length using Nat.strong_induction_on generalizing cs with
  | _ bound ih =>
    rcases raw_parseChars cs with core | ⟨piece, shorter, same⟩
    · rw [core, parse, String.toList_ofList]
      exact parseChars_congr (core_core cs)
    · rw [same]
      exact ih piece.length (size ▸ shorter) piece rfl

/-- Reading the text of an expression gives the expression back. -/
theorem parse_raw (text : String) : parse (parse text).raw = parse text :=
  parse_raw_parseChars text.toList

/-- An expression that some text stands for. -/
def IsParsed (expr : TypeExpr) : Prop := ∃ text, parse text = expr

/-- Expressions that were read are told apart by their texts. -/
theorem IsParsed.eq_of_raw_eq {left right : TypeExpr} (read : left.IsParsed)
    (read' : right.IsParsed) (same : left.raw = right.raw) : left = right := by
  obtain ⟨text, rfl⟩ := read
  obtain ⟨text', rfl⟩ := read'
  rw [← parse_raw text, same, parse_raw text']

end TypeExpr

end RamlTypes
