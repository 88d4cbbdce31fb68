import RamlTypes.Proofs.ExpressionParts

/-!
# Last segments of names

A text that is read as a name keeps its whole text, and is referred to by what stands behind its
last dot. Only a dot behind the first character counts, and none does in a text that starts with
one.
-/
namespace RamlTypes.TypeExpr

open Text

/-- The text is a qualifier, a dot and a name without dots, or it is a name as a whole. -/
inductive SplitsAtDot : String → String → String → Prop where
  | whole {text : String} (undotted : text.toList.head? = some '.' ∨ '.' ∉ text.toList) :
      SplitsAtDot text "" text
  | dotted {qualifier name : String} (qualified : qualifier ≠ "")
      (start : qualifier.toList.head? ≠ some '.') (last : '.' ∉ name.toList) :
      SplitsAtDot (qualifier ++ "." ++ name) qualifier name

/-- A name is its whole text where there is no dot to cut at. -/
theorem SplitsAtDot.name_eq_iff {text qualifier name : String}
    (splits : SplitsAtDot text qualifier name) :
    name = text ↔ text.toList.head? = some '.' ∨ '.' ∉ text.toList := by
  cases splits with
  | whole undotted => exact iff_of_true rfl undotted
  | @dotted qualifier name qualified start _ =>
    have nonempty : qualifier.toList ≠ [] := String.toList_eq_nil_iff.not.mpr qualified
    obtain ⟨c, rest, first⟩ := List.exists_cons_of_ne_nil nonempty
    refine iff_of_false (fun same => ?_) ?_
    -- The name would be longer than itself.
    · have size := congrArg String.length same
      simp only [String.length_append] at size
      have dot : ".".length = 1 := rfl
      omega
    · simp only [String.toList_append, first] at start ⊢
      simpa using start

theorem hasInside_eq_false_iff {c : Char} {cs : List Char} :
    hasInside c cs = false ↔ cs.head? = some c ∨ c ∉ cs := by
  simp [hasInside, or_iff_not_imp_left]

/-- A text is cut into what stands before the first occurrence of a character and behind it. -/
theorem takeWhile_append_of_mem {c : Char} {cs : List Char} (occurs : c ∈ cs) :
    cs.takeWhile (· != c) ++ c :: (cs.dropWhile (· != c)).drop 1 = cs := by
  induction cs with
  | nil => cases occurs
  | cons d cs ih =>
    by_cases same : d = c
    · simp [same]
    · have later : c ∈ cs := (List.mem_cons.mp occurs).resolve_left (Ne.symm same)
      simpa [same] using ih later

theorem splitsAtDot_append {qualifier name : List Char}
    (inside : hasInside '.' (qualifier ++ ['.'] ++ name) = true) (last : '.' ∉ name) :
    SplitsAtDot (String.ofList (qualifier ++ ['.'] ++ name)) (String.ofList qualifier)
      (String.ofList name) := by
  cases qualifier with
  | nil => simp [hasInside] at inside
  | cons c rest =>
    have joined : String.ofList (c :: rest ++ ['.'] ++ name) =
        String.ofList (c :: rest) ++ "." ++ String.ofList name := by
      rw [String.ofList_append, String.ofList_append]
    have start : c ≠ '.' := by
      rintro rfl
      simp [hasInside] at inside
    rw [joined]
    refine .dotted ?_ ?_ (by rwa [String.toList_ofList])
    · simp [String.ofList_eq_empty_iff]
    · simpa using start

/-- The name that a text is read as is its last segment. -/
theorem ofName_splitsAtDot (cs : List Char) :
    ∃ name qualifier, ofName cs = .named (String.ofList cs) name qualifier ∧
      SplitsAtDot (String.ofList cs) qualifier name := by
  unfold ofName
  split
  next inside =>
    refine ⟨_, _, rfl, ?_⟩
    have occurs : '.' ∈ cs.reverse := List.mem_reverse.mpr (mem_of_hasInside inside)
    -- From the end of the text, the dot is the first one.
    have cut := congrArg List.reverse (takeWhile_append_of_mem occurs)
    have last : '.' ∉ (cs.reverse.takeWhile (· != '.')).reverse := by
      intro member
      simpa using List.mem_takeWhile_imp (List.mem_reverse.mp member)
    simp only [List.reverse_append, List.reverse_cons, List.reverse_reverse] at cut
    have splits := splitsAtDot_append (by rwa [cut]) last
    rwa [cut] at splits
  next outside =>
    have undotted : hasInside '.' cs = false := by simpa using outside
    refine ⟨_, _, rfl, .whole ?_⟩
    rw [String.toList_ofList]
    exact hasInside_eq_false_iff.mp undotted

/-- An expression that was read and is a name is the one of its own text. -/
theorem ofName_of_parseChars {cs : List Char} {raw name qualifier : String}
    (read : parseChars cs = .named raw name qualifier) :
    ofName raw.toList = .named raw name qualifier := by
  -- On the length of the text, since a union of one member stands for a shorter text.
  induction size : cs.length using Nat.strong_induction_on generalizing cs with
  | _ bound ih =>
    rw [parseChars_eq] at read
    split at read
    · cases read
    · split at read
      · cases read
      · split at read
        next union =>
          have shorter := length_lt_of_mem_unionPieces union
          -- A union of more or fewer members than one is no name.
          match unionPieces (core cs), shorter, read with
          | [piece], shorter, read =>
            exact ih piece.length (size ▸ shorter piece (by simp)) read rfl
        · have same : String.ofList (core cs) = raw := by rw [← raw_ofName, read]; rfl
          subst same
          rwa [String.toList_ofList]

/-- Of a name that was read, what it is referred to by is the last segment of its text. -/
theorem IsParsed.splitsAtDot {raw name qualifier : String}
    (read : (named raw name qualifier).IsParsed) : SplitsAtDot raw qualifier name := by
  obtain ⟨text, parsed⟩ := read
  have written := ofName_of_parseChars parsed
  obtain ⟨name', qualifier', same, splits⟩ := ofName_splitsAtDot raw.toList
  rw [String.ofList_toList] at same splits
  cases written.symm.trans same
  exact splits

end RamlTypes.TypeExpr
