import RamlTypes.Proofs.Enclosures

/-!
# Printing expressions

An expression is printed with parentheses around every operand of a suffix and every member of a
union that is not a name. Reading the printed text gives the expression back, as long as no member
of a union has a union in it: then no bar stands in the parentheses of a member, and the bars that
are cut at are those between the members.
-/
namespace RamlTypes

open Text

/-- A type expression without the texts that it was read from. -/
inductive Shape where
  | name (qualifier segment : String)
  | array (dimensions : Nat) (element : Shape)
  | map (value : Shape)
  | union (members : List Shape)

namespace TypeExpr

mutual

def shape : TypeExpr → Shape
  | named _ name qualifier => .name qualifier name
  | array _ dimensions element => .array dimensions element.shape
  | map _ value => .map value.shape
  | union _ members => .union (shapes members)

def shapes : List TypeExpr → List Shape
  | [] => []
  | expr :: rest => expr.shape :: shapes rest

end

theorem shapes_eq (exprs : List TypeExpr) : shapes exprs = exprs.map shape := by
  induction exprs with
  | nil => rfl
  | cons expr rest ih => rw [shapes, ih, List.map_cons]

end TypeExpr

namespace Shape

/-- The text of an operand or a member, which is a name as it stands or has parentheses around
it. -/
def operand : Shape → List Char → List Char
  | name _ _, text => text
  | _, text => '(' :: (text ++ [')'])

/-- So many array suffixes. -/
def arraySuffixes : Nat → List Char
  | 0 => []
  | dimensions + 1 => arraySuffixes dimensions ++ TypeExpr.arraySuffix

mutual

def text : Shape → List Char
  | name qualifier segment =>
      if qualifier = "" then segment.toList else qualifier.toList ++ '.' :: segment.toList
  | array dimensions element => element.operand element.text ++ arraySuffixes dimensions
  | map value => value.operand value.text ++ TypeExpr.mapSuffix
  | union members => memberTexts members

def memberTexts : List Shape → List Char
  | [] => []
  | [member] => member.operand member.text
  | first :: second :: rest =>
      first.operand first.text ++ [' ', '|', ' '] ++ memberTexts (second :: rest)

end

/-- There is no union in the expression. -/
inductive UnionFree : Shape → Prop where
  | name (qualifier segment : String) : UnionFree (.name qualifier segment)
  | array (dimensions : Nat) {element : Shape} (free : UnionFree element) :
      UnionFree (.array dimensions element)
  | map {value : Shape} (free : UnionFree value) : UnionFree (.map value)

/-- An expression that can be printed: the last segment of a name has no dot, arrays have
dimensions, and unions have several members without unions in them. -/
inductive Printable : Shape → Prop where
  | bare {segment : String} (nonempty : segment ≠ "") (plain : TypeExpr.IsPlain segment.toList)
      (noDot : '.' ∉ segment.toList) : Printable (.name "" segment)
  | qualified {qualifier segment : String} (nonempty : qualifier ≠ "") (nonempty' : segment ≠ "")
      (plain : TypeExpr.IsPlain qualifier.toList) (plain' : TypeExpr.IsPlain segment.toList)
      (first : qualifier.toList.head? ≠ some '.') (noDot : '.' ∉ segment.toList) :
      Printable (.name qualifier segment)
  | array {dimensions : Nat} {element : Shape} (positive : 1 ≤ dimensions)
      (inside : Printable element) : Printable (.array dimensions element)
  | map {value : Shape} (inside : Printable value) : Printable (.map value)
  | union {members : List Shape} (several : 2 ≤ members.length)
      (inside : ∀ member ∈ members, Printable member)
      (free : ∀ member ∈ members, UnionFree member) : Printable (.union members)

/-- White space and pairs of parentheses stand around a text, in any number and order. -/
inductive Surrounds (text : List Char) : List Char → Prop where
  | nothing : Surrounds text text
  | blankBefore {c : Char} {cs : List Char} (blank : isBlank c = true)
      (inside : Surrounds text cs) : Surrounds text (c :: cs)
  | blankBehind {c : Char} {cs : List Char} (blank : isBlank c = true)
      (inside : Surrounds text cs) : Surrounds text (cs ++ [c])
  | group {cs : List Char} (inside : Surrounds text cs) : Surrounds text ('(' :: (cs ++ [')']))

/-! ### Firm texts -/

/-- A balanced text with no white space at its ends. -/
structure IsFirm (cs : List Char) : Prop where
  nonempty : cs ≠ []
  balanced : TypeExpr.Balanced cs
  first : ∀ c, cs.head? = some c → isBlank c = false
  last : ∀ c, cs.getLast? = some c → isBlank c = false

namespace IsFirm

variable {cs : List Char}

theorem trim_eq (firm : IsFirm cs) : trim cs = cs := trim_eq_self firm.first firm.last

theorem trimLeft_eq (firm : IsFirm cs) : trimLeft cs = cs := by
  obtain ⟨c, rest, rfl⟩ := List.exists_cons_of_ne_nil firm.nonempty
  simp [trimLeft, firm.first c rfl]

theorem trimRight_eq (firm : IsFirm cs) : trimRight cs = cs := by
  rw [← firm.trimLeft_eq]
  exact firm.trim_eq.trans firm.trimLeft_eq.symm

theorem append {middle right : List Char} (firm : IsFirm cs) (balanced : TypeExpr.Balanced middle)
    (firm' : IsFirm right) : IsFirm (cs ++ middle ++ right) := by
  obtain ⟨c, rest, rfl⟩ := List.exists_cons_of_ne_nil firm.nonempty
  refine ⟨by simp, (firm.balanced.append balanced).append firm'.balanced, firm.first, ?_⟩
  intro d last
  rw [List.getLast?_append_of_ne_nil _ firm'.nonempty] at last
  exact firm'.last d last

theorem of_plain (nonempty : cs ≠ []) (plain : TypeExpr.IsPlain cs) : IsFirm cs :=
  ⟨nonempty, plain.balanced, fun c head => (plain c (List.mem_of_head? head)).1,
    fun c last => (plain c (List.mem_of_getLast? last)).1⟩

theorem group (balanced : TypeExpr.Balanced cs) : IsFirm ('(' :: (cs ++ [')'])) := by
  refine ⟨by simp, .group balanced .nil, ?_, ?_⟩
  · intro c first
    cases first
    decide
  · intro c last
    rw [← List.cons_append, List.getLast?_concat] at last
    cases last
    decide

theorem append_suffix {c d : Char} (firm : IsFirm cs)
    (solid : isBlank c = false ∧ isBlank d = false)
    (plain : ∀ e ∈ [c, d], e ≠ '(' ∧ e ≠ ')') : IsFirm (cs ++ [c, d]) := by
  have suffix : IsFirm [c, d] :=
    ⟨by simp, .of_plain plain, by simpa using solid.1, by simpa using solid.2⟩
  simpa using firm.append .nil suffix

theorem append_arraySuffixes (firm : IsFirm cs) (dimensions : Nat) :
    IsFirm (cs ++ arraySuffixes dimensions) := by
  induction dimensions with
  | zero => simpa [arraySuffixes] using firm
  | succ dimensions ih =>
    rw [arraySuffixes, ← List.append_assoc]
    exact ih.append_suffix (by decide) (by simp)

end IsFirm

/-! ### Operands -/

/-- What reading the printed text of an expression rests on. -/
structure IsReadBack (e : Shape) : Prop where
  firm : IsFirm e.text
  whole : TypeExpr.core e.text = e.text
  read : (TypeExpr.parseChars e.text).shape = e

variable {e : Shape}

theorem operand_name_or_group (e : Shape) (cs : List Char) :
    ((∃ qualifier segment, e = .name qualifier segment) ∧ e.operand cs = cs) ∨
      e.operand cs = '(' :: (cs ++ [')']) := by
  cases e with
  | name qualifier segment => exact .inl ⟨⟨qualifier, segment, rfl⟩, rfl⟩
  | array | map | union => exact .inr rfl

theorem IsReadBack.firm_operand (back : IsReadBack e) : IsFirm (e.operand e.text) := by
  rcases operand_name_or_group e e.text with ⟨_, same⟩ | grouped
  · rw [same]
    exact back.firm
  · rw [grouped]
    exact .group back.firm.balanced

/-- Parentheses around an operand are removed when it is read. -/
theorem IsReadBack.parse_operand (back : IsReadBack e) :
    TypeExpr.parseChars (e.operand e.text) = TypeExpr.parseChars e.text := by
  rcases operand_name_or_group e e.text with ⟨_, same⟩ | grouped
  · rw [same]
  · rw [grouped]
    exact TypeExpr.parseChars_congr (TypeExpr.core_group back.firm.balanced)

/-- An operand does not end like a suffix. -/
def EndsOpen (cs : List Char) : Prop := ∀ c, cs.getLast? = some c → c ≠ ']' ∧ c ≠ '}'

theorem EndsOpen.hasSuffix_eq_false {cs : List Char} (ends : EndsOpen cs) :
    TypeExpr.hasSuffix TypeExpr.arraySuffix cs = false ∧
      TypeExpr.hasSuffix TypeExpr.mapSuffix cs = false := by
  constructor
  · by_contra found
    obtain ⟨body, rfl⟩ := TypeExpr.exists_of_hasSuffix (Bool.not_eq_false _ ▸ found)
    exact (ends ']' (by simp [TypeExpr.arraySuffix])).1 rfl
  · by_contra found
    obtain ⟨body, rfl⟩ := TypeExpr.exists_of_hasSuffix (Bool.not_eq_false _ ▸ found)
    exact (ends '}' (by simp [TypeExpr.mapSuffix])).2 rfl

theorem Printable.plain_name {qualifier segment : String}
    (printable : Printable (.name qualifier segment)) :
    TypeExpr.IsPlain (text (.name qualifier segment)) := by
  cases printable with
  | bare _ plain _ => simpa [text] using plain
  | qualified nonempty _ plain plain' _ _ =>
    rw [text, if_neg nonempty]
    intro c member
    rcases List.mem_append.mp member with inside | inside
    · exact plain c inside
    · rcases List.mem_cons.mp inside with rfl | inside
      · decide
      · exact plain' c inside

theorem Printable.endsOpen (printable : e.Printable) : EndsOpen (e.operand e.text) := by
  intro c last
  -- A name has no brackets, and all other operands end with a parenthesis.
  rcases operand_name_or_group e e.text with ⟨⟨qualifier, segment, rfl⟩, same⟩ | grouped
  · rw [same] at last
    have apart := (printable.plain_name c (List.mem_of_getLast? last)).2
    simp only [List.mem_cons, not_or] at apart
    exact ⟨apart.2.2.2.2.1, apart.2.2.2.2.2.2.1⟩
  · rw [grouped, ← List.cons_append, List.getLast?_concat] at last
    cases last
    decide

/-! ### Names, arrays and maps -/

/-- A dotted text is cut at its last dot. -/
theorem ofName_qualified {qualifier segment : List Char} (nonempty : qualifier ≠ [])
    (first : qualifier.head? ≠ some '.') (noDot : '.' ∉ segment) :
    (TypeExpr.ofName (qualifier ++ '.' :: segment)).shape =
      .name (String.ofList qualifier) (String.ofList segment) := by
  have inside : TypeExpr.hasInside '.' (qualifier ++ '.' :: segment) = true := by
    obtain ⟨c, rest, rfl⟩ := List.exists_cons_of_ne_nil nonempty
    simpa [TypeExpr.hasInside] using first
  -- Seen from the end, everything up to the first dot is the segment.
  have before : ∀ c ∈ segment.reverse, (c != '.') = true := by
    intro c member
    have inside := List.mem_reverse.mp member
    simp only [bne_iff_ne]
    rintro rfl
    exact noDot inside
  have reversed : (qualifier ++ '.' :: segment).reverse =
      segment.reverse ++ '.' :: qualifier.reverse := by simp
  rw [TypeExpr.ofName, if_pos inside, reversed, List.takeWhile_append_of_pos before,
    List.dropWhile_append_of_pos before]
  simp [TypeExpr.shape]

theorem Printable.read_name {qualifier segment : String}
    (printable : Printable (.name qualifier segment)) :
    (TypeExpr.ofName (text (.name qualifier segment))).shape = .name qualifier segment := by
  cases printable with
  | bare _ _ noDot =>
    have noInside : TypeExpr.hasInside '.' segment.toList = false := by
      simp [TypeExpr.hasInside, noDot]
    simp [text, TypeExpr.ofName, noInside, TypeExpr.shape]
  | qualified nonempty _ _ _ first noDot =>
    rw [text, if_neg nonempty, ofName_qualified (by simpa using nonempty) first noDot]
    simp

theorem Printable.name_ne_nil {qualifier segment : String}
    (printable : Printable (.name qualifier segment)) : text (.name qualifier segment) ≠ [] := by
  cases printable with
  | bare nonempty _ _ => simpa [text] using nonempty
  | qualified nonempty _ _ _ _ _ => simp [text, nonempty]

theorem Printable.isReadBack_name {qualifier segment : String}
    (printable : Printable (.name qualifier segment)) : IsReadBack (.name qualifier segment) := by
  have plain := printable.plain_name
  refine ⟨.of_plain printable.name_ne_nil plain, plain.core_eq, ?_⟩
  rw [plain.parseChars_eq_ofName]
  exact printable.read_name

theorem peelArrays_arraySuffixes {cs : List Char} (firm : IsFirm cs) (ends : EndsOpen cs)
    (dimensions : Nat) :
    TypeExpr.peelArrays (cs ++ arraySuffixes dimensions) = (cs, dimensions) := by
  induction dimensions with
  | zero =>
    rw [arraySuffixes, List.append_nil]
    exact TypeExpr.peelArrays_of_not_hasSuffix ends.hasSuffix_eq_false.1
  | succ dimensions ih =>
    have tight := (firm.append_arraySuffixes dimensions).trimRight_eq
    rw [arraySuffixes, ← List.append_assoc, TypeExpr.peelArrays_append, tight, ih]

theorem IsReadBack.array (back : IsReadBack e) (ends : EndsOpen (e.operand e.text))
    (dimensions : Nat) : IsReadBack (.array (dimensions + 1) e) := by
  have firm := back.firm_operand.append_arraySuffixes dimensions
  have printed : text (.array (dimensions + 1) e) =
      e.operand e.text ++ arraySuffixes dimensions ++ TypeExpr.arraySuffix := by
    rw [text, arraySuffixes, List.append_assoc]
  constructor
  · exact back.firm_operand.append_arraySuffixes (dimensions + 1)
  · rw [printed, TypeExpr.core_append_arraySuffix, firm.trimLeft_eq]
  · -- One suffix makes it an array, and the others in front of it are counted.
    rw [printed, TypeExpr.parseChars_append_arraySuffix, firm.trim_eq,
      peelArrays_arraySuffixes back.firm_operand ends, TypeExpr.shape, back.parse_operand,
      back.read]

theorem IsReadBack.map (back : IsReadBack e) : IsReadBack (.map e) := by
  constructor
  · exact back.firm_operand.append_suffix (by decide) (by simp)
  · rw [text, TypeExpr.core_append_mapSuffix, back.firm_operand.trimLeft_eq]
  · rw [text, TypeExpr.parseChars_append_mapSuffix, TypeExpr.shape, back.parse_operand, back.read]

/-! ### Unions -/

theorem noBar_arraySuffixes (dimensions : Nat) : '|' ∉ arraySuffixes dimensions := by
  induction dimensions with
  | zero => simp [arraySuffixes]
  | succ dimensions ih => simp [arraySuffixes, TypeExpr.arraySuffix, ih]

theorem noBar_operand {cs : List Char} (noBar : '|' ∉ cs) (e : Shape) : '|' ∉ e.operand cs := by
  rcases operand_name_or_group e cs with ⟨_, same⟩ | grouped
  · rwa [same]
  · simp [grouped, noBar]

/-- Only unions are printed with bars. -/
theorem UnionFree.noBar (free : e.UnionFree) (printable : e.Printable) : '|' ∉ e.text := by
  induction free with
  | name => exact printable.plain_name.not_mem (by simp)
  | array dimensions _ ih =>
    cases printable with
    | array _ inside =>
      rw [text, List.mem_append, not_or]
      exact ⟨noBar_operand (ih inside) _, noBar_arraySuffixes dimensions⟩
  | map _ ih =>
    cases printable with
    | map inside =>
      rw [text, List.mem_append, not_or]
      exact ⟨noBar_operand (ih inside) _, by decide⟩

theorem core_append_blanks {lead : List Char} (blank : ∀ c ∈ lead, isBlank c = true)
    (cs : List Char) : TypeExpr.core (lead ++ cs) = TypeExpr.core cs := by
  induction lead with
  | nil => rfl
  | cons c lead ih =>
    rw [List.cons_append, TypeExpr.core_cons_blank (blank c (by simp))]
    exact ih fun d member => blank d (by simp [member])

section Members

variable {members : List Shape}

theorem firm_memberTexts (nonempty : members ≠ [])
    (back : ∀ member ∈ members, IsReadBack member) : IsFirm (memberTexts members) := by
  induction members with
  | nil => exact absurd rfl nonempty
  | cons first rest ih =>
    cases rest with
    | nil => exact (back first (by simp)).firm_operand
    | cons second rest =>
      have later := ih (by simp) fun member listed => back member (by simp [listed])
      exact (back first (by simp)).firm_operand.append (.of_plain (by simp)) later

theorem endsOpen_memberTexts (nonempty : members ≠ [])
    (back : ∀ member ∈ members, IsReadBack member)
    (printable : ∀ member ∈ members, member.Printable) : EndsOpen (memberTexts members) := by
  induction members with
  | nil => exact absurd rfl nonempty
  | cons first rest ih =>
    cases rest with
    | nil => exact (printable first (by simp)).endsOpen
    | cons second rest =>
      have later := ih (by simp) (fun member listed => back member (by simp [listed]))
        fun member listed => printable member (by simp [listed])
      have firm : IsFirm (memberTexts (second :: rest)) :=
        firm_memberTexts (by simp) fun member listed => back member (by simp [listed])
      intro c last
      rw [memberTexts, List.getLast?_append_of_ne_nil _ firm.nonempty] at last
      exact later c last

/-- The text of a member is read as the member, with white space left and right of it. -/
theorem read_piece {lead trail : List Char} {member : Shape} (back : IsReadBack member)
    (noBar : '|' ∉ member.text) (blank : ∀ c ∈ lead, isBlank c = true)
    (blank' : trail = [] ∨ trail = [' ']) :
    ((splitAt '|' (lead ++ member.operand member.text ++ trail)).filter fun piece =>
      !isBlankText piece).map (fun piece => (TypeExpr.parseChars piece).shape) = [member] := by
  obtain ⟨c, rest, starts⟩ := List.exists_cons_of_ne_nil back.firm_operand.nonempty
  have solid : isBlank c = false := back.firm_operand.first c (by simp [starts])
  -- There is no bar in the piece, so it is not cut any further.
  have apart : '|' ∉ lead ++ member.operand member.text ++ trail := by
    intro found
    rcases List.mem_append.mp found with found | found
    · rcases List.mem_append.mp found with found | found
      · exact absurd (blank _ found) (by decide)
      · exact noBar_operand noBar member found
    · rcases blank' with rfl | rfl <;> simp at found
  have visible : isBlankText (lead ++ member.operand member.text ++ trail) = false := by
    simp [isBlankText, starts, solid]
  have same : TypeExpr.core (lead ++ member.operand member.text ++ trail) =
      TypeExpr.core (member.operand member.text) := by
    rcases blank' with rfl | rfl
    · rw [List.append_nil, core_append_blanks blank]
    · rw [TypeExpr.core_append_blank (by decide), core_append_blanks blank]
  rw [splitAt_of_not_mem apart, List.filter_singleton, visible]
  simp only [Bool.not_false, cond_true, List.map_cons, List.map_nil]
  rw [TypeExpr.parseChars_congr same, back.parse_operand, back.read]

/-- Cut at its bars, the text of a union falls into its members. White space in front is what a cut
has left of the separator. -/
theorem read_pieces {lead : List Char} (blank : ∀ c ∈ lead, isBlank c = true)
    (nonempty : members ≠ []) (back : ∀ member ∈ members, IsReadBack member)
    (noBar : ∀ member ∈ members, '|' ∉ member.text) :
    ((splitAt '|' (lead ++ memberTexts members)).filter fun piece => !isBlankText piece).map
      (fun piece => (TypeExpr.parseChars piece).shape) = members := by
  induction members generalizing lead with
  | nil => exact absurd rfl nonempty
  | cons first rest ih =>
    cases rest with
    | nil =>
      have here := read_piece (back first (by simp)) (noBar first (by simp)) blank (.inl rfl)
      rwa [List.append_nil] at here
    | cons second rest =>
      have here := read_piece (back first (by simp)) (noBar first (by simp)) blank (.inr rfl)
      have space : ∀ c ∈ [' '], isBlank c = true := List.forall_mem_singleton.mpr rfl
      have later := ih space (by simp) (fun member listed => back member (by simp [listed]))
        fun member listed => noBar member (by simp [listed])
      -- The first member has no bar, so the first cut is at the separator behind it.
      have split : lead ++ memberTexts (first :: second :: rest) =
          lead ++ first.operand first.text ++ [' '] ++
            '|' :: ([' '] ++ memberTexts (second :: rest)) := by
        simp [memberTexts]
      rw [split, splitAt_append_separator, List.filter_append, List.map_append, here, later]
      rfl

theorem shape_ofMembers {raw : String} {pieces : List (List Char)}
    (read : pieces.map (fun piece => (TypeExpr.parseChars piece).shape) = members)
    (several : 2 ≤ members.length) :
    (TypeExpr.ofMembers raw (pieces.map TypeExpr.parseChars)).shape = .union members := by
  subst read
  match pieces, several with
  | first :: second :: rest, _ =>
    simp [TypeExpr.ofMembers, TypeExpr.shape, TypeExpr.shapes_eq]

theorem IsReadBack.union (several : 2 ≤ members.length)
    (back : ∀ member ∈ members, IsReadBack member)
    (printable : ∀ member ∈ members, member.Printable)
    (noBar : ∀ member ∈ members, '|' ∉ member.text) : IsReadBack (.union members) := by
  obtain ⟨first, second, rest, rfl⟩ : ∃ first second rest, members = first :: second :: rest := by
    match members, several with
    | first :: second :: rest, _ => exact ⟨first, second, rest, rfl⟩
  have firm := firm_memberTexts (by simp) back
  have ends := endsOpen_memberTexts (by simp) back printable
  have head := (back first (by simp)).firm_operand
  -- The parentheses of the first member are closed before the separator.
  have bare : TypeExpr.isEnclosed (memberTexts (first :: second :: rest)) = false := by
    rw [memberTexts, List.append_assoc]
    exact head.balanced.isEnclosed_append head.nonempty (by simp)
  have whole := TypeExpr.core_eq_self firm.trim_eq bare
  have inside : TypeExpr.hasInside '|' (memberTexts (first :: second :: rest)) = true := by
    obtain ⟨c, others, starts⟩ := List.exists_cons_of_ne_nil head.nonempty
    have apart : c ≠ '|' := by
      rintro rfl
      exact noBar_operand (noBar first (by simp)) first (by simp [starts])
    simp [TypeExpr.hasInside, memberTexts, starts, apart]
  refine ⟨firm, whole, ?_⟩
  have nothing : ∀ c ∈ [], isBlank c = true := by simp
  have pieces := read_pieces nothing (by simp) back noBar
  rw [List.nil_append] at pieces
  rw [text, TypeExpr.parseChars_eq, whole, ends.hasSuffix_eq_false.1, ends.hasSuffix_eq_false.2,
    if_neg (by simp), if_neg (by simp), if_pos inside]
  exact shape_ofMembers pieces several

end Members

/-! ### The round trip -/

theorem Printable.isReadBack (printable : e.Printable) : IsReadBack e := by
  -- An operand or a member is read back before the expression that it is a part of.
  induction printable with
  | bare nonempty plain noDot => exact (Printable.bare nonempty plain noDot).isReadBack_name
  | qualified nonempty nonempty' plain plain' first noDot =>
    exact (Printable.qualified nonempty nonempty' plain plain' first noDot).isReadBack_name
  | @array dimensions _ positive inside ih =>
    obtain ⟨dimensions, rfl⟩ := Nat.exists_eq_add_of_lt positive
    rw [Nat.zero_add]
    exact ih.array inside.endsOpen dimensions
  | map _ ih => exact ih.map
  | union several inside free ih =>
    exact .union several ih inside fun member listed =>
      (free member listed).noBar (inside member listed)

theorem Surrounds.core_eq {text cs : List Char} (around : Surrounds text cs)
    (balanced : TypeExpr.Balanced text) :
    TypeExpr.core cs = TypeExpr.core text ∧ TypeExpr.Balanced cs := by
  induction around with
  | nothing => exact ⟨rfl, balanced⟩
  | blankBefore blank _ ih =>
    refine ⟨(TypeExpr.core_cons_blank blank _).trans ih.1, .char ?_ ?_ ih.2⟩
    all_goals
      rintro rfl
      exact absurd blank (by decide)
  | @blankBehind c cs blank _ ih =>
    refine ⟨(TypeExpr.core_append_blank blank _).trans ih.1, ih.2.append (.char ?_ ?_ .nil)⟩
    all_goals
      rintro rfl
      exact absurd blank (by decide)
  | group _ ih => exact ⟨(TypeExpr.core_group ih.2).trans ih.1, .group ih.2 .nil⟩

/-- Reading undoes printing, with any white space and parentheses around the printed text. -/
theorem shape_parse_text (printable : e.Printable) {cs : List Char}
    (around : Surrounds e.text cs) : (TypeExpr.parse (String.ofList cs)).shape = e := by
  have back := printable.isReadBack
  rw [TypeExpr.parse, String.toList_ofList,
    TypeExpr.parseChars_congr (around.core_eq back.firm.balanced).1]
  exact back.read

theorem shape_parse_text_litters :
    (TypeExpr.parse " ((zoo.Pet[][]) | (Litter{})) ").shape =
      .union [.array 2 (.name "zoo" "Pet"), .map (.name "" "Litter")] := by
  have pet : Printable (.name "zoo" "Pet") :=
    .qualified (by decide) (by decide) (by decide) (by decide) (by decide) (by decide)
  have litter : Printable (.name "" "Litter") := .bare (by decide) (by decide) (by decide)
  have printable :
      Printable (.union [.array 2 (.name "zoo" "Pet"), .map (.name "" "Litter")]) := by
    refine .union (by decide) ?_ ?_
    · simpa using ⟨.array (by decide) pet, .map litter⟩
    · simpa using ⟨.array 2 (.name _ _), .map (.name _ _)⟩
  have around : Surrounds (text (.union [.array 2 (.name "zoo" "Pet"), .map (.name "" "Litter")]))
      " ((zoo.Pet[][]) | (Litter{})) ".toList :=
    .blankBefore (by decide) (.blankBehind (by decide) (.group .nothing))
  exact shape_parse_text printable around

end Shape

end RamlTypes
