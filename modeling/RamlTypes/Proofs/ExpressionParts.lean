import Mathlib
import RamlTypes.Proofs.Expressions

/-!
# Parts of expressions

An expression that was read consists of expressions that were read: the element of an array, the
value of a map and the members of a union each come from a piece of the text. So the text of a part
stands for the part alone, and parts of any two expressions are equal where their texts are.
-/
namespace RamlTypes.TypeExpr

/-- The expressions that an expression is built from. -/
def operands : TypeExpr → List TypeExpr
  | named _ _ _ => []
  | array _ _ element => [element]
  | map _ value => [value]
  | union _ members => members

/-- One expression is the other, or occurs in it at some depth. -/
inductive IsPart (part : TypeExpr) : TypeExpr → Prop where
  | self : IsPart part part
  | within {whole operand : TypeExpr} (listed : operand ∈ whole.operands)
      (inside : IsPart part operand) : IsPart part whole

theorem referencedNames_subset_of_operand {whole operand : TypeExpr}
    (listed : operand ∈ whole.operands) : operand.referencedNames ⊆ whole.referencedNames := by
  intro name member
  cases whole with
  | named => cases listed
  | array raw dimensions element =>
    cases List.mem_singleton.mp listed
    exact member
  | map raw value =>
    cases List.mem_singleton.mp listed
    exact member
  | union raw members =>
    rw [referencedNames, referencedNamesOfAll_eq]
    exact List.mem_flatMap.mpr ⟨operand, listed, member⟩

/-- An expression has the names of its parts. -/
theorem IsPart.referencedNames_subset {part whole : TypeExpr} (inside : part.IsPart whole) :
    part.referencedNames ⊆ whole.referencedNames := by
  induction inside with
  | self => exact List.Subset.refl _
  | within listed _ ih => exact List.Subset.trans ih (referencedNames_subset_of_operand listed)

/-- Whatever a text is read as is built from what some texts are read as. -/
theorem exists_pieces (cs : List Char) :
    ∃ pieces : List (List Char), (parseChars cs).operands = pieces.map parseChars := by
  -- On the length of the text, since a union of one member stands for a shorter text.
  induction size : cs.length using Nat.strong_induction_on generalizing cs with
  | _ bound ih =>
    rw [parseChars_eq]
    split
    · exact ⟨[(peelArrays (core cs)).1], rfl⟩
    · split
      · exact ⟨[beforeSuffix (core cs)], rfl⟩
      · split
        next union =>
          have shorter := length_lt_of_mem_unionPieces union
          match unionPieces (core cs), shorter with
          | [], _ => exact ⟨[], rfl⟩
          | [piece], shorter => exact ih piece.length (size ▸ shorter piece (by simp)) piece rfl
          | first :: second :: rest, _ => exact ⟨first :: second :: rest, rfl⟩
        · unfold ofName
          split <;> exact ⟨[], rfl⟩

theorem IsParsed.operand {whole operand : TypeExpr} (read : whole.IsParsed)
    (listed : operand ∈ whole.operands) : operand.IsParsed := by
  obtain ⟨text, rfl⟩ := read
  obtain ⟨pieces, built⟩ := exists_pieces text.toList
  rw [parse, built] at listed
  obtain ⟨piece, _, rfl⟩ := List.mem_map.mp listed
  exact ⟨String.ofList piece, by rw [parse, String.toList_ofList]⟩

theorem IsParsed.part {part whole : TypeExpr} (read : whole.IsParsed) (inside : part.IsPart whole) :
    part.IsParsed := by
  induction inside with
  | self => exact read
  | within listed _ ih => exact ih (read.operand listed)

/-- The text of a part stands for the part, and for no other part of any expression. -/
theorem parse_raw_of_isPart {text : String} {part : TypeExpr} (inside : part.IsPart (parse text)) :
    parse part.raw = part ∧
      ∀ (text' : String) (part' : TypeExpr), part'.IsPart (parse text') →
        part.raw = part'.raw → part = part' := by
  have read : part.IsParsed := IsParsed.part ⟨text, rfl⟩ inside
  refine ⟨?_, fun text' part' inside' same => ?_⟩
  · obtain ⟨source, rfl⟩ := read
    exact parse_raw source
  · have read' : part'.IsParsed := IsParsed.part ⟨text', rfl⟩ inside'
    exact read.eq_of_raw_eq read' same

/-- Parts behind an empty member and suffixes with blanks between them. -/
theorem parse_raw_of_isPart_shelves :
    IsPart (.named "b.B" "B" "b") (parse "( ((A)) | | b.B[] [] ){}") ∧
      parse "b.B" = .named "b.B" "B" "b" ∧
      ∀ (text' : String) (part' : TypeExpr), part'.IsPart (parse text') →
        "b.B" = part'.raw → .named "b.B" "B" "b" = part' := by
  have read : parse "( ((A)) | | b.B[] [] ){}" =
      .map "( ((A)) | | b.B[] [] ){}" (.array "((A)) | | b.B[] []" 2
        (.union "((A)) | | b.B" [.named "A" "A" "", .named "b.B" "B" "b"])) := by
    cbv
  have inside : IsPart (.named "b.B" "B" "b") (parse "( ((A)) | | b.B[] [] ){}") := by
    rw [read]
    exact .within (List.mem_singleton.mpr rfl) (.within (List.mem_singleton.mpr rfl)
      (.within (List.mem_cons_of_mem _ List.mem_cons_self) .self))
  exact ⟨inside, parse_raw_of_isPart inside⟩

end RamlTypes.TypeExpr
