import Mathlib.Data.String.Basic
import RamlTypes.Proofs.Payloads
import RamlTypes.Proofs.ShortForms

/-!
# Media types

A body without a type of its own is read from one of its media types. Where their names differ, the
first one that can be used is found by its name alone: media types that mention JSON come first, and
then the names are compared by code points. What is wrong with it is the defect of the body; nothing
is asked of the others. So media types may be written in any order, everywhere in a document: it is
resolved to the same model.
-/
namespace RamlTypes

namespace Text

theorem occursIn_iff (part cs : List Char) : occursIn part cs = true ↔ part <:+: cs := by
  induction cs with
  | nil => simp [occursIn]
  | cons c rest ih => rw [occursIn, Bool.or_eq_true, List.isPrefixOf_iff_prefix, ih,
      List.infix_cons_iff]

end Text

theorem Entries.facet?_eq_none_iff {name : String} {entries : Entries} :
    facet? name entries = none ↔ ∀ entry ∈ entries, entry.1 ≠ .text name := by
  rw [facet?, List.lookup_eq_none_iff]
  exact forall₂_congr fun entry _ => by rw [bne_iff_ne, ne_comm]

namespace Schema

open Entries (Replaced)

/-! ### The first media type -/

def MentionsJson (key : Scalar) : Prop := "json".toList <:+: key.display.toList

/-- The one media type is preferred to the other, or has the same name. -/
def Precedes (key other : Scalar) : Prop :=
  MentionsJson key ∧ ¬ MentionsJson other ∨
    (MentionsJson key ↔ MentionsJson other) ∧ key.display ≤ other.display

/-- The entry can be used, and precedes all others of the body that can. -/
structure IsFirstUsable (entries : Entries) (entry : Scalar × Value) : Prop where
  listed : entry ∈ entries
  usable : isUsable entry.2 = true
  first : ∀ other ∈ entries, isUsable other.2 = true → Precedes entry.1 other.1

/-- How reading a body ends that is decided by the entry: a text is the type, and of a mapping the
facet `type` is read. -/
inductive Decides (path : Path) : Scalar × Value → Except ReadFault String → Prop where
  | text {key : Scalar} {type : String} : Decides path (key, .text type) (.ok type)
  | facet {key : Scalar} {declaration : Entries} {value : Value} {type : Option String}
      (found : Entries.facet? "type" declaration = some value)
      (read : readType (path ++ [key.display]) (some value) = .ok type) :
      Decides path (key, .map declaration) (.ok (type.getD ""))
  | defect {key : Scalar} {declaration : Entries} {value : Value} {fault : ReadFault}
      (found : Entries.facet? "type" declaration = some value)
      (wrong : readType (path ++ [key.display]) (some value) = .error fault) :
      Decides path (key, .map declaration) (.error fault)

/-- No two media types of the body have the same name. -/
def HasDistinctNames (entries : Entries) : Prop :=
  (entries.map fun entry => entry.1.display).Nodup

instance (entries : Entries) : Decidable (HasDistinctNames entries) :=
  inferInstanceAs (Decidable (List.Nodup _))

variable {path : Path} {entries entries' : Entries} {entry : Scalar × Value}

theorem mediaTypeLe_iff (a b : Scalar × Value) : mediaTypeLe a b = true ↔ Precedes a.1 b.1 := by
  simp only [mediaTypeLe, Precedes, MentionsJson, ← Text.occursIn_iff]
  generalize Text.occursIn _ a.1.display.toList = p
  generalize Text.occursIn _ b.1.display.toList = q
  cases p <;> cases q <;> simp

theorem Precedes.antisymm {key other : Scalar} (precedes : Precedes key other)
    (precedes' : Precedes other key) : key.display = other.display := by
  rcases precedes with ⟨mentions, apart⟩ | ⟨level, le⟩
  · rcases precedes' with ⟨mentions', _⟩ | ⟨level, _⟩
    · exact absurd mentions' apart
    · exact absurd (level.mpr mentions) apart
  · rcases precedes' with ⟨mentions, apart⟩ | ⟨_, le'⟩
    · exact absurd (level.mpr mentions) apart
    · exact le_antisymm le le'

theorem HasDistinctNames.eq_of_precedes (distinct : HasDistinctNames entries)
    {other : Scalar × Value} (listed : entry ∈ entries) (listed' : other ∈ entries)
    (precedes : Precedes entry.1 other.1) (precedes' : Precedes other.1 entry.1) :
    entry = other :=
  List.inj_on_of_nodup_map distinct listed listed' (precedes.antisymm precedes')

/-- Preference orders media types of different names, whatever order they are written in. -/
theorem sortWith_mediaTypes (distinct : HasDistinctNames entries) (perm : entries.Perm entries') :
    sortWith mediaTypeLe entries = sortWith mediaTypeLe entries' := by
  refine sortWith_congr mediaTypeLe_total mediaTypeLe_trans perm ?_
  intro a here b there first second
  exact distinct.eq_of_precedes here there ((mediaTypeLe_iff a b).mp first)
    ((mediaTypeLe_iff b a).mp second)

theorem firstMediaType_decides {rest : Entries} (usable : isUsable entry.2 = true) :
    Decides path entry (firstMediaType path (entry :: rest)) := by
  obtain ⟨key, value⟩ := entry
  match value, usable with
  | .scalar (.text type), _ => exact .text
  | .map declaration, usable =>
    obtain ⟨facet, found⟩ := Option.isSome_iff_exists.mp usable
    simp only [firstMediaType, found]
    cases read : readType (path ++ [key.display]) (some facet) with
    | ok type => exact .facet found read
    | error fault => exact .defect found read

theorem bodyType_untyped (untyped : Entries.facet? "type" entries = none)
    (named : HasNames entries) :
    bodyType path (some (.map entries)) =
      firstMediaType path (sortWith mediaTypeLe (entries.filter (isUsable ·.2))) := by
  rw [bodyType_media untyped, if_pos named, firstMediaType_filter,
    sortWith_filter mediaTypeLe_total mediaTypeLe_trans]

theorem bodyType_unusable (untyped : Entries.facet? "type" entries = none)
    (named : HasNames entries) (unusable : ∀ entry ∈ entries, isUsable entry.2 = false) :
    bodyType path (some (.map entries)) = .ok "" := by
  have none : entries.filter (isUsable ·.2) = [] :=
    List.filter_eq_nil_iff.mpr fun entry member => by simp [unusable entry member]
  rw [bodyType_untyped untyped named, none]
  rfl

/-- Sorting the entries that can be used puts the first one in front. -/
theorem isFirstUsable_of_sorted {rest : Entries}
    (sorted : sortWith mediaTypeLe (entries.filter (isUsable ·.2)) = entry :: rest) :
    IsFirstUsable entries entry := by
  have ordered := sortWith_pairwise mediaTypeLe_total mediaTypeLe_trans
    (entries.filter (isUsable ·.2))
  have kept (other : Scalar × Value) :
      other ∈ entry :: rest ↔ other ∈ entries ∧ isUsable other.2 = true := by
    rw [← sorted, (sortWith_perm mediaTypeLe_total mediaTypeLe_trans _).mem_iff, List.mem_filter]
  rw [sorted] at ordered
  obtain ⟨listed, usable⟩ := (kept entry).mp List.mem_cons_self
  refine ⟨listed, usable, fun other listed' usable' => ?_⟩
  rw [← mediaTypeLe_iff]
  rcases List.mem_cons.mp ((kept other).mpr ⟨listed', usable'⟩) with rfl | behind
  · exact mediaTypeLe_refl other
  · exact (List.pairwise_cons.mp ordered).1 other behind

theorem IsFirstUsable.unique (distinct : HasDistinctNames entries) {other : Scalar × Value}
    (first : IsFirstUsable entries entry) (first' : IsFirstUsable entries other) : entry = other :=
  distinct.eq_of_precedes first.listed first'.listed (first.first other first'.listed first'.usable)
    (first'.first entry first.listed first.usable)

/-- In a body with an entry that can be used, the one that decides is in front after sorting. -/
theorem exists_sorted (usable : ∃ entry ∈ entries, isUsable entry.2 = true) :
    ∃ entry rest, sortWith mediaTypeLe (entries.filter (isUsable ·.2)) = entry :: rest := by
  obtain ⟨entry, listed, usable⟩ := usable
  have kept : entry ∈ sortWith mediaTypeLe (entries.filter (isUsable ·.2)) := by
    rw [(sortWith_perm mediaTypeLe_total mediaTypeLe_trans _).mem_iff]
    exact List.mem_filter.mpr ⟨listed, usable⟩
  exact List.exists_cons_of_ne_nil (List.ne_nil_of_mem kept)

theorem existsUnique_isFirstUsable (distinct : HasDistinctNames entries)
    (usable : ∃ entry ∈ entries, isUsable entry.2 = true) :
    ∃! entry, IsFirstUsable entries entry := by
  obtain ⟨entry, rest, sorted⟩ := exists_sorted usable
  have first := isFirstUsable_of_sorted sorted
  exact ⟨entry, first, fun other first' => first'.unique distinct first⟩

theorem bodyType_decides (untyped : Entries.facet? "type" entries = none)
    (distinct : HasDistinctNames entries) (named : HasNames entries)
    (first : IsFirstUsable entries entry) :
    Decides path entry (bodyType path (some (.map entries))) := by
  obtain ⟨front, rest, sorted⟩ := exists_sorted ⟨entry, first.listed, first.usable⟩
  obtain rfl : entry = front := first.unique distinct (isFirstUsable_of_sorted sorted)
  -- Reading stops at the entry in front, so those behind may be anything.
  rw [bodyType_untyped untyped named, sorted]
  exact firstMediaType_decides first.usable

theorem bodyType_perm (untyped : Entries.facet? "type" entries = none)
    (distinct : HasDistinctNames entries) (perm : entries.Perm entries') :
    bodyType path (some (.map entries')) = bodyType path (some (.map entries)) := by
  have untyped' : Entries.facet? "type" entries' = none := by
    rw [Entries.facet?_eq_none_iff] at untyped ⊢
    exact fun entry member => untyped entry (perm.mem_iff.mpr member)
  have names : HasNames entries' ↔ HasNames entries := by
    simp only [HasNames, perm.mem_iff]
  -- The entries are sorted before any of them is looked at.
  rw [bodyType_media untyped, bodyType_media untyped', sortWith_mediaTypes distinct perm]
  simp only [names]

/-! ### Documents -/

/-- The second body is the first one with its media types in another order. -/
inductive BodyReordered : Value → Value → Prop where
  | media {entries entries' : Entries} (untyped : Entries.facet? "type" entries = none)
      (distinct : HasDistinctNames entries) (perm : entries.Perm entries') :
      BodyReordered (.map entries) (.map entries')

/-- In the body of the request or of a response of a method, the media types are reordered. -/
inductive MethodReordered : Entries → Entries → Prop where
  | request {method method' : Entries} {body body' : Value} (reordered : BodyReordered body body')
      (placed : Replaced (.text "body") body body' method method') : MethodReordered method method'
  | response {code : Scalar} {body body' : Value}
      {method method' responses responses' response response' : Entries}
      (reordered : BodyReordered body body')
      (placed : Replaced (.text "body") body body' response response')
      (listed : Replaced code (.map response) (.map response') responses responses')
      (outer : Replaced (.text "responses") (.map responses) (.map responses') method method') :
      MethodReordered method method'

/-- In a method of a resource, or of one nested in it, media types are reordered. -/
inductive ResourceReordered : Entries → Entries → Prop where
  | method {key : String} {resource resource' method method' : Entries}
      (verb : Text.lower key ∈ verbs) (reordered : MethodReordered method method')
      (placed : Replaced (.text key) (.map method) (.map method') resource resource') :
      ResourceReordered resource resource'
  | nested {key : String} {resource resource' child child' : Entries}
      (slashed : isResourceKey key = true) (reordered : ResourceReordered child child')
      (placed : Replaced (.text key) (.map child) (.map child') resource resource') :
      ResourceReordered resource resource'

/-- In one body somewhere in a document, the media types are reordered. -/
inductive DocumentReordered : Entries → Entries → Prop where
  | resource {key : String} {document document' resource resource' : Entries}
      (slashed : isResourceKey key = true) (reordered : ResourceReordered resource resource')
      (placed : Replaced (.text key) (.map resource) (.map resource') document document') :
      DocumentReordered document document'

theorem BodyReordered.bodyType_eq {body body' : Value} (reordered : BodyReordered body body') :
    bodyType path (some body) = bodyType path (some body') := by
  obtain ⟨untyped, distinct, perm⟩ := reordered
  exact (bodyType_perm untyped distinct perm).symm

/-- The facet is the body that was reordered, or the same in both. -/
theorem BodyReordered.bodyType_facet {body body' : Value} (reordered : BodyReordered body body')
    (placed : Replaced (.text "body") body body' entries entries') :
    bodyType path (Entries.facet? "body" entries) =
      bodyType path (Entries.facet? "body" entries') := by
  rcases placed.facet?_eq with same | ⟨found, found'⟩
  · rw [same]
  · rw [found, found', reordered.bodyType_eq]

theorem responseTypes_replaced {code : Scalar} {response response' : Entries}
    (same : ∀ path, bodyType path (Entries.facet? "body" response) =
      bodyType path (Entries.facet? "body" response'))
    (listed : Replaced code (.map response) (.map response') entries entries') :
    responseTypes path entries = responseTypes path entries' := by
  -- In front of the response that is replaced, both mappings are the same.
  obtain ⟨before, after⟩ := listed
  induction before with
  | nil => simp only [List.nil_append, responseTypes, same]
  | cons entry rest ih =>
    obtain ⟨key, value⟩ := entry
    cases value <;> simp only [List.cons_append, responseTypes, ih]

theorem MethodReordered.readMethod_eq {method method' : Entries} {key : String}
    (reordered : MethodReordered method method') :
    readMethod path key (.map method) = readMethod path key (.map method') := by
  -- Request and responses stand under different keys, so one of them is read from what it was.
  cases reordered with
  | request reordered placed =>
    have others := placed.agreeBut
    simp only [readMethod, pure_bind, reordered.bodyType_facet placed,
      others "responses" (by decide), others "displayName" (by decide)]
  | @response code body body' _ _ responses responses' response response' reordered placed listed
      outer =>
    have others := outer.agreeBut
    have types : responseTypes path responses = responseTypes path responses' :=
      responseTypes_replaced (fun _ => reordered.bodyType_facet placed) listed
    simp only [readMethod, pure_bind, others "body" (by decide), others "displayName" (by decide)]
    refine bind_congr fun request => ?_
    rcases outer.facet?_eq with same | ⟨found, found'⟩
    · rw [same]
    · simp only [found, found', readSection, ok_bind, types]

/-- A member of a resource is replaced by one that is read alike. -/
theorem readMembers_replaced (uri : String) {key : String} {value value' : Value}
    (child : isResourceKey key = true → readResource key value = readResource key value')
    (method : Text.lower key ∈ verbs →
      readMethod [uri, key] key value = readMethod [uri, key] key value')
    (placed : Replaced (.text key) value value' entries entries') :
    readMembers uri entries = readMembers uri entries' := by
  obtain ⟨before, after⟩ := placed
  induction before with
  | nil =>
    rw [List.nil_append, List.nil_append, readMembers, readMembers]
    split_ifs with slashed verb
    · rw [child slashed]
    · rw [method verb]
    · rfl
  | cons entry rest ih =>
    obtain ⟨key', first⟩ := entry
    cases key' with
    | text key' => rw [List.cons_append, List.cons_append, readMembers, readMembers, ih]
    | null | bool | int | float | timestamp | bytes =>
      simp only [List.cons_append, readMembers, ih]

theorem ResourceReordered.readResource_eq {resource resource' : Entries}
    (reordered : ResourceReordered resource resource') (uri : String) :
    readResource uri (.map resource) = readResource uri (.map resource') := by
  -- No key is both a verb and a path, so only one of the readers sees the member that changed.
  induction reordered generalizing uri with
  | method verb reordered placed =>
    have members := readMembers_replaced uri
      (fun slashed => by simp [isResourceKey_of_verb verb] at slashed)
      (fun _ => reordered.readMethod_eq) placed
    rw [readResource, readResource, members]
  | nested slashed _ placed ih =>
    have members := readMembers_replaced uri (fun _ => ih _)
      (fun verb => by simp [isResourceKey_of_verb verb] at slashed) placed
    rw [readResource, readResource, members]

theorem readResources_slashed {key : String} {value value' : Value}
    (same : readResource key value = readResource key value')
    (placed : Replaced (.text key) value value' entries entries') :
    readResources entries = readResources entries' := by
  obtain ⟨before, after⟩ := placed
  induction before with
  | nil => rw [List.nil_append, List.nil_append, readResources, readResources, same]
  | cons entry rest ih =>
    obtain ⟨key', first⟩ := entry
    cases key' with
    | text key' => rw [List.cons_append, List.cons_append, readResources, readResources, ih]
    | null | bool | int | float | timestamp | bytes => exact ih

/-- The types and the title stand under keys of their own, and all resources are read alike. -/
theorem DocumentReordered.ofDocument_eq {document document' : Entries}
    (reordered : DocumentReordered document document') :
    ofDocument document = ofDocument document' := by
  cases reordered with
  | @resource key _ _ _ _ slashed reordered placed =>
    have others (name : String) (plain : isResourceKey name = false) :
        Entries.facet? name document = Entries.facet? name document' := by
      refine placed.agreeBut name fun named => ?_
      rw [List.mem_singleton.mp named, slashed] at plain
      cases plain
    rw [ofDocument, ofDocument, others "types" (by decide), others "title" (by decide),
      readResources_slashed (reordered.readResource_eq key) placed]

theorem ofDocument_reordered {document document' : Entries}
    (joined : Relation.EqvGen DocumentReordered document document') :
    ofDocument document = ofDocument document' := by
  induction joined with
  | rel _ _ reordered => exact reordered.ofDocument_eq
  | refl => rfl
  | symm _ _ _ ih => exact ih.symm
  | trans _ _ _ _ _ first second => exact first.trans second

/-- A body without a type of its own, in which all media types have different names, is read alike
whatever their order is. The first one that can be used decides how reading ends, as long as all
names can be written. Documents that
differ in the order of media types only have the same graph, so the same types are used, and are
resolved to the same model. -/
theorem bodyType_mediaTypes (path : Path) {entries : Entries}
    (untyped : Entries.facet? "type" entries = none) (distinct : HasDistinctNames entries) :
    (∀ entries' : Entries, entries.Perm entries' →
      bodyType path (some (.map entries')) = bodyType path (some (.map entries))) ∧
    (HasNames entries → (∃ entry ∈ entries, isUsable entry.2 = true) →
      ∃! entry, IsFirstUsable entries entry ∧
        Decides path entry (bodyType path (some (.map entries)))) ∧
    (HasNames entries → (∀ entry ∈ entries, isUsable entry.2 = false) →
      bodyType path (some (.map entries)) = .ok "") ∧
    ∀ document document' : Entries, Relation.EqvGen DocumentReordered document document' →
      readGraph document = readGraph document' ∧
      ∀ profile requested config, resolveDocument profile requested config document =
        resolveDocument profile requested config document' := by
  refine ⟨fun entries' perm => bodyType_perm untyped distinct perm, fun named usable => ?_,
    bodyType_unusable untyped, fun document document' joined => ?_⟩
  · obtain ⟨entry, first, only⟩ := existsUnique_isFirstUsable distinct usable
    exact ⟨entry, ⟨first, bodyType_decides untyped distinct named first⟩,
      fun other other' => only other other'.1⟩
  · have read : readGraph document = readGraph document' := by
      rw [readGraph, readGraph, ofDocument_reordered joined]
    refine ⟨read, fun profile requested config => ?_⟩
    rw [resolveDocument, resolveDocument, resolveWith, resolveWith, read]

/-- Behind an entry that nobody could read and one that says nothing, pets are given as JSON. -/
def kennelBody : Entries :=
  [(.text "application/xml", .map [(.text "type", .list [.text "Pet", .text "Note"])]),
  (.int 7, .scalar .null), (.text "text/json", .map [(.text "type", .text "Pet[]")])]

def kennelDocument (body : Entries) : Entries :=
  [(.text "types", .map [
    (.text "Pet", .scalar .null), (.text "Cat", .map [(.text "type", .text "Pet")])]),
  (.text "/kennels", .map [(.text "/{id}", .map [(.text "get", .map [
    (.text "responses", .map [(.int 200, .map [(.text "body", .map body)])])])])])]

theorem kennelDocument_reordered {body body' : Entries}
    (reordered : BodyReordered (.map body) (.map body')) :
    DocumentReordered (kennelDocument body) (kennelDocument body') := by
  have verb : Text.lower "get" ∈ verbs := by decide
  have slashed : isResourceKey "/{id}" = true := by decide
  have method := @MethodReordered.response (.int 200) _ _ _ _ _ _ _ _ reordered (.between [] [])
    (.between [] []) (.between [] [])
  have resource := ResourceReordered.method verb method (.between [] [])
  exact .resource (by decide) (.nested slashed resource (.between [] [])) (.between [_] [])

/-- The list of pets decides from both ends of the body, so pets are used. -/
theorem bodyType_mediaTypes_kennel :
    Entries.facet? "type" kennelBody = none ∧ HasDistinctNames kennelBody ∧
      kennelBody.Perm kennelBody.reverse ∧
      bodyType ["/kennels"] (some (.map kennelBody)) = .ok "Pet[]" ∧
      bodyType ["/kennels"] (some (.map kennelBody.reverse)) = .ok "Pet[]" ∧
      Relation.EqvGen DocumentReordered (kennelDocument kennelBody)
        (kennelDocument kennelBody.reverse) ∧
      ∃ g, (readGraph (kennelDocument kennelBody)).outcome = .ok g ∧ g.usedNames = ["Pet"] ∧
        (readGraph (kennelDocument kennelBody.reverse)).outcome = .ok g ∧
        resolveDocument Profile.java "" {} (kennelDocument kennelBody) =
          resolveDocument Profile.java "" {} (kennelDocument kennelBody.reverse) := by
  have untyped : Entries.facet? "type" kennelBody = none := rfl
  have distinct : HasDistinctNames kennelBody := by decide
  have perm : kennelBody.Perm kennelBody.reverse := (List.reverse_perm _).symm
  have joined : Relation.EqvGen DocumentReordered (kennelDocument kennelBody)
      (kennelDocument kennelBody.reverse) :=
    .rel _ _ (kennelDocument_reordered (.media untyped distinct perm))
  obtain ⟨reordered, _, _, documents⟩ := bodyType_mediaTypes ["/kennels"] untyped distinct
  obtain ⟨same, resolved⟩ := documents _ _ joined
  have named : HasNames kennelBody := by decide +kernel
  have typed : bodyType ["/kennels"] (some (.map kennelBody)) = .ok "Pet[]" := by
    rw [bodyType_media untyped, if_pos named]
    exact firstMediaType_sortWith ⟨[_, _], [], rfl, by decide, by decide⟩ (.facet rfl .text)
  obtain ⟨g, read, used⟩ : ∃ g, (readGraph (kennelDocument kennelBody)).outcome = .ok g ∧
      g.usedNames = ["Pet"] :=
    exists_of_toOption_map (by decide +kernel)
  exact ⟨untyped, distinct, perm, typed, (reordered _ perm).trans typed, joined, g, read, used,
    same ▸ read, resolved _ _ _⟩

end Schema

end RamlTypes
