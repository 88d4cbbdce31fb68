import RamlTypes.Proofs.Outcomes
import RamlTypes.Proofs.SortedNames
import RamlTypes.Schema.OfDocument

/-!
# Types of bodies

A body declares the type of its payload itself or under its media types. Of several media types one
counts: those that mention JSON are preferred to others, and among equals the one with the lesser
name. Entries that declare no type at all are passed over, so they do not matter for the choice. In
a body with one media type the type that is offered is the one that counts.
-/
namespace RamlTypes.Schema

/-- The value of a facet `type` that stands for the type. -/
inductive IsTypeFacet : Value → String → Prop where
  | text {type : String} : IsTypeFacet (.text type) type
  | single {type : String} : IsTypeFacet (.list [.text type]) type

/-- A declaration gives a type, as a text or with its facet `type`. -/
inductive Declares : Value → String → Prop where
  | text {type : String} : Declares (.text type) type
  | facet {entries : Entries} {value : Value} {type : String}
      (found : Entries.facet? "type" entries = some value) (written : IsTypeFacet value type) :
      Declares (.map entries) type

/-- Whether the declaration of a media type is looked at: a text, or a mapping with a `type`. -/
def isUsable : Value → Bool
  | .scalar (.text _) => true
  | .map entries => (Entries.facet? "type" entries).isSome
  | _ => false

/-- Of the media types of a body that can be used, the entry is the first by preference; of several
that are preferred equally, the first in the document. -/
def IsPreferred (entries : Entries) (entry : Scalar × Value) : Prop :=
  ∃ before after, entries = before ++ entry :: after ∧
    (∀ other ∈ before, isUsable other.2 = true → mediaTypeLe other entry = false) ∧
    ∀ other ∈ after, isUsable other.2 = true → mediaTypeLe entry other = true

/-- The type of the payload that a body declares: its own type or, in a body without one, that of
the preferred media type. -/
inductive DeclaresPayload : Value → String → Prop where
  | own {body : Value} {type : String} (declared : Declares body type) : DeclaresPayload body type
  | media {entries : Entries} {entry : Scalar × Value} {type : String}
      (plain : Entries.facet? "type" entries = none) (preferred : IsPreferred entries entry)
      (declared : Declares entry.2 type) : DeclaresPayload (.map entries) type

/-- A type that a body offers for its payload: its own type or, in a body without one, that of any
media type. -/
inductive OffersPayload : Value → String → Prop where
  | own {body : Value} {type : String} (declared : Declares body type) : OffersPayload body type
  | media {entries : Entries} {entry : Scalar × Value} {type : String}
      (plain : Entries.facet? "type" entries = none) (listed : entry ∈ entries)
      (declared : Declares entry.2 type) : OffersPayload (.map entries) type

/-! ### The order of media types -/

theorem mediaTypeLe_refl (a : Scalar × Value) : mediaTypeLe a a = true := by
  simp [mediaTypeLe]

theorem mediaTypeLe_total (a b : Scalar × Value) : (mediaTypeLe a b || mediaTypeLe b a) = true := by
  simp only [mediaTypeLe]
  generalize Text.occursIn _ a.1.display.toList = p
  generalize Text.occursIn _ b.1.display.toList = q
  cases p <;> cases q <;> simp [le_total]

theorem mediaTypeLe_trans (a b c : Scalar × Value) (first : mediaTypeLe a b = true)
    (second : mediaTypeLe b c = true) : mediaTypeLe a c = true := by
  simp only [mediaTypeLe] at first second ⊢
  generalize Text.occursIn _ a.1.display.toList = p at *
  generalize Text.occursIn _ b.1.display.toList = q at *
  generalize Text.occursIn _ c.1.display.toList = r at *
  cases p <;> cases q <;> cases r <;> simp_all
  all_goals exact first.trans second

/-! ### One media type and several -/

theorem Declares.isUsable {declaration : Value} {type : String}
    (declared : Declares declaration type) : isUsable declaration = true := by
  cases declared with
  | text => rfl
  | facet found _ => simp [Schema.isUsable, found]

theorem IsPreferred.mem {entries : Entries} {entry : Scalar × Value}
    (preferred : IsPreferred entries entry) : entry ∈ entries := by
  obtain ⟨before, after, rfl, _, _⟩ := preferred
  simp

theorem DeclaresPayload.offersPayload {body : Value} {type : String}
    (declared : DeclaresPayload body type) : OffersPayload body type := by
  cases declared with
  | own declared => exact .own declared
  | media plain preferred declared => exact .media plain preferred.mem declared

/-- There is nothing to choose in a body with a single media type that can be used. -/
theorem OffersPayload.declaresPayload {entries : Entries} {type : String}
    (offered : OffersPayload (.map entries) type)
    (single : ∀ entry ∈ entries, ∀ other ∈ entries,
      isUsable entry.2 = true → isUsable other.2 = true → other = entry) :
    DeclaresPayload (.map entries) type := by
  cases offered with
  | own declared => exact .own declared
  | @media _ entry _ plain listed declared =>
    -- The entry may stand in the body more than once; its first place is the preferred one.
    obtain ⟨before, after, rfl, new⟩ := List.eq_append_cons_of_mem listed
    refine .media plain ⟨before, after, rfl, ?_, ?_⟩ declared
    · intro other member usable
      cases single entry listed other (by simp [member]) declared.isUsable usable
      exact absurd member new
    · intro other member usable
      cases single entry listed other (by simp [member]) declared.isUsable usable
      exact mediaTypeLe_refl entry

/-! ### The chosen type -/

variable {path : Path}

theorem readType_of_isTypeFacet {value : Value} {type : String} (written : IsTypeFacet value type) :
    readType path (some value) = .ok (some type) := by
  cases written <;> rfl

/-- Only the entries that can be used decide. -/
theorem firstMediaType_filter (entries : Entries) :
    firstMediaType path entries = firstMediaType path (entries.filter (isUsable ·.2)) := by
  fun_induction firstMediaType path entries with
  | case1 => rfl
  | case2 => rfl
  | case3 key declaration rest type found => simp [isUsable, found, firstMediaType]
  | case4 key declaration rest absent ih => simp [isUsable, absent, ih]
  | case5 entry rest noText noMap ih =>
    have skipped : isUsable entry.2 = false := by
      obtain ⟨key, value⟩ := entry
      fun_cases isUsable value with
      | case1 => exact absurd rfl (noText _ _)
      | case2 => exact absurd rfl (noMap _ _)
      | case3 => rfl
    simp [skipped, ih]

theorem firstMediaType_of_head? {entries : Entries} {entry : Scalar × Value} {type : String}
    (first : entries.head? = some entry) (declared : Declares entry.2 type) :
    firstMediaType path entries = .ok type := by
  obtain ⟨key, declaration⟩ := entry
  obtain ⟨rest, rfl⟩ := List.head?_eq_some_iff.mp first
  cases declared with
  | text => rfl
  | facet found written =>
    simp [firstMediaType, found, readType_of_isTypeFacet written]

theorem firstMediaType_sortWith {entries : Entries} {entry : Scalar × Value} {type : String}
    (preferred : IsPreferred entries entry) (declared : Declares entry.2 type) :
    firstMediaType path (sortWith mediaTypeLe entries) = .ok type := by
  obtain ⟨before, after, rfl, first, last⟩ := preferred
  -- Entries can be passed over before they are sorted, so only the usable ones are compared.
  rw [firstMediaType_filter, sortWith_filter mediaTypeLe_total mediaTypeLe_trans]
  simp only [List.filter_append, List.filter_cons, declared.isUsable, if_true]
  refine firstMediaType_of_head?
    (head?_sortWith mediaTypeLe_total mediaTypeLe_trans ?_ ?_) declared
  · intro other member
    obtain ⟨listed, usable⟩ := List.mem_filter.mp member
    exact first other listed usable
  · intro other member
    obtain ⟨listed, usable⟩ := List.mem_filter.mp member
    exact last other listed usable

/-- The names of all media types can be written. -/
def HasNames (entries : Entries) : Prop := ∀ entry ∈ entries, entry.1.isPrintable = true

instance (entries : Entries) : Decidable (HasNames entries) :=
  inferInstanceAs (Decidable (∀ entry ∈ entries, _))

theorem not_hasNames_iff {entries : Entries} :
    ¬ HasNames entries ↔ ∃ entry ∈ entries, entry.1.isPrintable = false := by
  simp [HasNames]

theorem readKey_rejectedBy (key : Scalar) :
    RejectedBy id False (key.isPrintable = false) (readKey key) := by
  rw [readKey]
  split
  next writable => exact .of_returns rfl id (by simp [writable])
  next unwritable => exact .longNumber (Bool.eq_false_of_not_eq_true unwritable)

/-- A body without a type of its own is read from its media types once they all have names. -/
theorem bodyType_media {entries : Entries} (plain : Entries.facet? "type" entries = none) :
    bodyType path (some (.map entries)) =
      if HasNames entries then firstMediaType path (sortWith mediaTypeLe entries)
      else .error .longNumber := by
  have ends := RejectedBy.mapM fun entry (_ : entry ∈ entries) => readKey_rejectedBy entry.1
  rw [bodyType, plain]
  cases read : entries.mapM fun entry => readKey entry.1 with
  | ok names =>
    have named : HasNames entries :=
      not_not.mp fun short => (ends.returns_iff.mp ⟨names, read⟩).2 (not_hasNames_iff.mp short)
    simp only [if_pos named]
    rfl
  | error fault =>
    rcases ends.fault_of_error read with ⟨⟨_, _, absurd⟩, _⟩ | ⟨short, rfl⟩
    · exact absurd.elim
    · rw [if_neg (not_hasNames_iff.mpr short)]
      rfl

/-- If reading a body returns, it gives the type of its payload. -/
theorem bodyType_of_declaresPayload {body : Value} {type read : String}
    (declared : DeclaresPayload body type) (returned : bodyType path (some body) = .ok read) :
    read = type := by
  cases declared with
  | own declared =>
    cases declared with
    | text => exact (Except.ok.inj returned).symm
    | facet found written =>
      simp only [bodyType, found, readType_of_isTypeFacet written] at returned
      exact (Except.ok.inj returned).symm
  | media plain preferred declared =>
    rw [bodyType_media plain, firstMediaType_sortWith preferred declared] at returned
    split at returned
    · exact (Except.ok.inj returned).symm
    · cases returned

end RamlTypes.Schema
