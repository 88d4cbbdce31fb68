import RamlTypes.Proofs.BodyTypes
import RamlTypes.Proofs.Graphs

/-!
# Accepted declarations

Declarations are checked in two phases: facets of types when the schema is read, and properties when
the graph is built. Together the phases accept one grammar. A declaration is null, a text or a
mapping with well-formed facets, and so is a property, down through inline properties of any depth.
Whatever else is declared is a defect of the schema. The only other way to fail is a number that is
wanted as a text and cannot be written.
-/
namespace RamlTypes

namespace Schema

/-! ### Facets -/

/-- The facet names a type or is left out. -/
inductive IsTypeRef : Option Value → Prop where
  | absent : IsTypeRef none
  | null : IsTypeRef (some .null)
  | written {value : Value} {type : String} (written : IsTypeFacet value type) :
      IsTypeRef (some value)

/-- The facet names the type of the items, itself or with a `type`. -/
inductive IsItemsRef : Option Value → Prop where
  | direct {facet : Option Value} (ref : IsTypeRef facet) : IsItemsRef facet
  | nested {entries : Entries} (ref : IsTypeRef (Entries.facet? "type" entries)) :
      IsItemsRef (some (.map entries))

/-- The facet lists literals or is left out. -/
inductive IsLiterals : Option Value → Prop where
  | absent : IsLiterals none
  | null : IsLiterals (some .null)
  | list (literals : List Value) : IsLiterals (some (.list literals))

/-- The facet is a mapping or is left out, where anything vacant counts as left out. -/
inductive IsSection : Option Value → Prop where
  | absent : IsSection none
  | vacant {value : Value} (vacant : value.isVacant = true) : IsSection (some value)
  | entries (entries : Entries) : IsSection (some (.map entries))

/-- The facet is a truth value or is left out. -/
inductive IsFlag : Option Value → Prop where
  | absent : IsFlag none
  | bool (flag : Bool) : IsFlag (some (.scalar (.bool flag)))

/-- The facets that types and properties share are well formed, inline properties aside. -/
structure HasFacets (entries : Entries) : Prop where
  properties : IsSection (Entries.facet? "properties" entries)
  enum : IsLiterals (Entries.facet? "enum" entries)
  type : IsTypeRef (Entries.facet? "type" entries)
  items : IsItemsRef (Entries.facet? "items" entries)

variable {path : Path} {facet : Option Value}

theorem readText_rejectedBy :
    RejectedBy id False (∃ value, facet = some value ∧ value.isPrintable = false)
      (readText facet) := by
  rw [readText]
  cases facet with
  | none => exact .of_returns rfl id (by simp)
  | some value =>
    rw [Option.all_some]
    split
    next writable => exact .of_returns rfl id (by simp [writable])
    next unwritable => exact .longNumber ⟨value, rfl, Bool.eq_false_of_not_eq_true unwritable⟩

theorem readEnum_rejectedBy : RejectedBy id (¬ IsLiterals facet) False (readEnum path facet) := by
  fun_cases readEnum path facet with
  | case1 => exact .of_returns rfl (not_not.mpr .absent) id
  | case2 => exact .of_returns rfl (not_not.mpr .null) id
  | case3 literals => exact .of_returns rfl (not_not.mpr (.list literals)) id
  | case4 value notNull notList =>
    refine .defect fun literals => ?_
    cases literals with
    | null => exact notNull rfl
    | list literals => exact notList literals rfl

theorem readSection_rejectedBy {part : String} :
    RejectedBy id (¬ IsSection facet) False (readSection path part facet) := by
  fun_cases readSection path part facet with
  | case1 => exact .of_returns rfl (not_not.mpr .absent) id
  | case2 entries => exact .of_returns rfl (not_not.mpr (.entries entries)) id
  | case3 value _ vacant => exact .of_returns rfl (not_not.mpr (.vacant vacant)) id
  | case4 value noMap occupied =>
    refine .defect fun accepted => ?_
    cases accepted with
    | vacant vacant => exact occupied vacant
    | entries entries => exact noMap entries rfl

theorem readTypeText_rejectedBy {value : Value} :
    RejectedBy id (∀ type, value ≠ .text type) False (readTypeText path value) := by
  fun_cases readTypeText path value with
  | case1 type => exact .of_returns rfl (fun other => other type rfl) id
  | case2 _ other => exact .defect other

/-- The facet lists several types, with a number among them that cannot be written. -/
def ListsLong (facet : Option Value) : Prop :=
  ∃ values, facet = some (.list values) ∧ values.length ≠ 1 ∧ Value.arePrintable values = false

theorem readType_rejectedBy :
    RejectedBy id (¬ IsTypeRef facet) (ListsLong facet) (readType path facet) := by
  fun_cases readType path facet with
  | case1 => exact .of_returns rfl (not_not.mpr .absent) (by simp [ListsLong])
  | case2 => exact .of_returns rfl (not_not.mpr .null) (by simp [ListsLong])
  | case3 value =>
    refine (readTypeText_rejectedBy.map some).congr ?_ (by simp [ListsLong])
    refine ⟨fun other ref => ?_, ?_⟩
    · cases ref with
      | written written => cases written with
        | single => exact other _ rfl
    · rintro wrong type rfl
      exact wrong (.written .single)
  | case4 values several writable =>
    refine .defect fun ref => ?_
    cases ref with
    | written written => cases written with
      | single => exact several _ rfl
  | case5 values several unwritable =>
    refine .longNumber ⟨values, rfl, ?_, Bool.eq_false_of_not_eq_true unwritable⟩
    exact fun one => several _ (List.length_eq_one_iff.mp one).choose_spec
  | case6 value notNull _ notList =>
    refine (readTypeText_rejectedBy.map some).congr ?_ ?_
    · refine ⟨fun other ref => ?_, ?_⟩
      · cases ref with
        | null => exact notNull rfl
        | written written => cases written with
          | text => exact other _ rfl
          | single => exact notList _ rfl
      · rintro wrong type rfl
        exact wrong (.written .text)
    · exact iff_of_false id fun ⟨values, same, _⟩ => notList values (Option.some.inj same)

/-- What names the type of the items: the facet itself, or the `type` in it. -/
def itemType : Option Value → Option Value
  | some (.map entries) => Entries.facet? "type" entries
  | facet => facet

theorem isItemsRef_iff : IsItemsRef facet ↔ IsTypeRef (itemType facet) := by
  fun_cases itemType facet with
  | case1 entries =>
    refine ⟨fun items => ?_, .nested⟩
    -- A mapping names no type itself, so the type of its items is behind its `type`.
    cases items with
    | direct ref => cases ref with
      | written written => cases written
    | nested ref => exact ref
  | case2 facet other =>
    refine ⟨fun items => ?_, .direct⟩
    cases items with
    | direct ref => exact ref
    | nested => exact absurd rfl (other _)

theorem readItems_rejectedBy :
    RejectedBy id (¬ IsItemsRef facet) (ListsLong (itemType facet)) (readItems path facet) := by
  have same : readItems path facet = readType (path ++ ["items"]) (itemType facet) := by
    fun_cases readItems path facet <;> simp_all [itemType]
  rw [same, isItemsRef_iff]
  exact readType_rejectedBy

end Schema

namespace TypeGraph

open Schema

theorem readRequired_rejectedBy {path : Path} {byKey : Bool} {facet : Option Value} :
    RejectedBy id (¬ IsFlag facet) False (readRequired path byKey facet) := by
  fun_cases readRequired path byKey facet with
  | case1 => exact .of_returns rfl (not_not.mpr .absent) id
  | case2 flag => exact .of_returns rfl (not_not.mpr (.bool flag)) id
  | case3 value other =>
    refine .defect fun accepted => ?_
    cases accepted with
    | bool flag => exact other flag rfl

/-- A property that is well formed, with its inline properties. -/
inductive IsProperty : Value → Prop where
  | null : IsProperty .null
  | text (type : String) : IsProperty (.text type)
  | map {entries : Entries} (required : IsFlag (Entries.facet? "required" entries))
      (facets : HasFacets entries)
      (inline : ∀ entry ∈ inlineProperties entries, IsProperty entry.2) :
      IsProperty (.map entries)

/-- A declaration of a type that is well formed, with its properties. -/
inductive IsTypeDecl : Value → Prop where
  | null : IsTypeDecl .null
  | text (type : String) : IsTypeDecl (.text type)
  | map {entries : Entries} (facets : HasFacets entries)
      (inline : ∀ entry ∈ inlineProperties entries, IsProperty entry.2) :
      IsTypeDecl (.map entries)

/-- The entries that declare properties in a declaration. -/
def declaredProperties : Value → Entries
  | .map entries => inlineProperties entries
  | _ => []

/-- A text is asked for that cannot be written: of the key of a property, of the description, or of
several types where one is wanted. -/
inductive HasLongFacet : Value → Prop where
  | key {value : Value} {entry : Scalar × Value} (listed : entry ∈ declaredProperties value)
      (long : entry.1.isPrintable = false) : HasLongFacet value
  | description {entries : Entries} {value : Value}
      (found : Entries.facet? "description" entries = some value)
      (long : value.isPrintable = false) : HasLongFacet (.map entries)
  | type {entries : Entries} (long : ListsLong (Entries.facet? "type" entries)) :
      HasLongFacet (.map entries)
  | items {entries : Entries} (long : ListsLong (itemType (Entries.facet? "items" entries))) :
      HasLongFacet (.map entries)

/-- The same somewhere in a declaration, down through inline properties of any depth. -/
inductive HasLongText : Value → Prop where
  | own {value : Value} (long : HasLongFacet value) : HasLongText value
  | inline {value : Value} {entry : Scalar × Value} (listed : entry ∈ declaredProperties value)
      (long : HasLongText entry.2) : HasLongText value

theorem hasLongText_iff {value : Value} :
    HasLongText value ↔
      HasLongFacet value ∨ ∃ entry ∈ declaredProperties value, HasLongText entry.2 := by
  constructor
  · rintro (long | ⟨listed, long⟩)
    · exact .inl long
    · exact .inr ⟨_, listed, long⟩
  · rintro (long | ⟨entry, listed, long⟩)
    · exact .own long
    · exact .inline listed long

theorem hasLongFacet_map_iff {entries : Entries} :
    HasLongFacet (.map entries) ↔
      (∃ entry ∈ inlineProperties entries, entry.1.isPrintable = false) ∨
      (∃ value, Entries.facet? "description" entries = some value ∧ value.isPrintable = false) ∨
      ListsLong (Entries.facet? "type" entries) ∨
      ListsLong (itemType (Entries.facet? "items" entries)) := by
  constructor
  · rintro (⟨listed, long⟩ | ⟨found, long⟩ | long | long)
    · exact .inl ⟨_, listed, long⟩
    · exact .inr (.inl ⟨_, found, long⟩)
    · exact .inr (.inr (.inl long))
    · exact .inr (.inr (.inr long))
  · rintro (⟨entry, listed, long⟩ | ⟨value, found, long⟩ | long | long)
    · have listed : entry ∈ declaredProperties (.map entries) := listed
      exact .key listed long
    · exact .description found long
    · exact .type long
    · exact .items long

theorem isPrintable_map_iff {entries : Entries} :
    (Value.map entries).isPrintable = true ↔
      ∀ entry ∈ entries, entry.1.isPrintable = true ∧ entry.2.isPrintable = true := by
  rw [Value.isPrintable]
  induction entries with
  | nil => simp [Value.entriesArePrintable]
  | cons entry rest ih => simp [Value.entriesArePrintable, ih, and_assoc]

theorem isPrintable_of_mem_declaredProperties {value : Value} (printable : value.isPrintable = true)
    {entry : Scalar × Value} (listed : entry ∈ declaredProperties value) :
    entry.1.isPrintable = true ∧ entry.2.isPrintable = true := by
  cases value with
  | map entries =>
    rw [declaredProperties, inlineProperties] at listed
    split at listed
    next inline found =>
      have inside := isPrintable_map_iff.mp printable _ (Entries.mem_of_facet? found)
      exact isPrintable_map_iff.mp inside.2 entry listed
    next => cases listed
  | _ => cases listed

theorem not_listsLong_of_facet {entries : Entries} {name : String}
    (printable : (Value.map entries).isPrintable = true) :
    ¬ ListsLong (Entries.facet? name entries) := by
  rintro ⟨values, found, _, long⟩
  have inside := isPrintable_map_iff.mp printable _ (Entries.mem_of_facet? found)
  rw [Value.isPrintable, long] at inside
  exact absurd inside.2 (by simp)

/-- Of a declaration that can be written as a whole, all texts can be written. -/
theorem not_hasLongText_of_isPrintable {value : Value} (printable : value.isPrintable = true) :
    ¬ HasLongText value := by
  intro long
  induction long with
  | inline listed _ ih => exact ih (isPrintable_of_mem_declaredProperties printable listed).2
  | own long =>
    cases long with
    | key listed long =>
      rw [(isPrintable_of_mem_declaredProperties printable listed).1] at long
      cases long
    | description found long =>
      rw [(isPrintable_map_iff.mp printable _ (Entries.mem_of_facet? found)).2] at long
      cases long
    | type long => exact not_listsLong_of_facet printable long
    | @items entries long =>
      cases facet : Entries.facet? "items" entries with
      | none =>
        rw [facet] at long
        exact absurd long (by simp [itemType, ListsLong])
      | some value =>
        rw [facet] at long
        have inside := (isPrintable_map_iff.mp printable _ (Entries.mem_of_facet? facet)).2
        cases value with
        | map inner => exact not_listsLong_of_facet inside long
        | _ =>
          rw [itemType, ← facet] at long
          · exact not_listsLong_of_facet printable long
          · nofun

theorem not_hasLongText_scalar (s : Scalar) : ¬ HasLongText (.scalar s) := by
  rintro (⟨⟨⟩, _⟩ | ⟨⟨⟩, _⟩)

/-! ### Properties -/

theorem sizeOf_lt_of_mem_inlineProperties {entries : Entries} {entry : Scalar × Value}
    (member : entry ∈ inlineProperties entries) : sizeOf entry.2 < sizeOf (Value.map entries) := by
  have listed := List.sizeOf_lt_of_mem member
  have inside := sizeOf_inlineProperties_lt entries
  obtain ⟨key, value⟩ := entry
  simp only [Prod.mk.sizeOf_spec] at listed ⊢
  omega

theorem inlineProperties_of_readSection {path : Path} {entries inline : Entries}
    (read : readSection path "properties" (Entries.facet? "properties" entries) = .ok inline) :
    inlineProperties entries = inline := by
  rw [inlineProperties.eq_def]
  rcases readSection_cases read with found | ⟨other, rfl⟩
  · rw [found]
  · split
    next inner found => exact absurd found (other inner)
    next => rfl

theorem not_hasFacets_iff {entries : Entries} :
    ¬ HasFacets entries ↔
      ¬ IsSection (Entries.facet? "properties" entries) ∨
      ¬ IsLiterals (Entries.facet? "enum" entries) ∨
      ¬ IsTypeRef (Entries.facet? "type" entries) ∨
      ¬ IsItemsRef (Entries.facet? "items" entries) := by
  have facets : HasFacets entries ↔ IsSection (Entries.facet? "properties" entries) ∧
      IsLiterals (Entries.facet? "enum" entries) ∧ IsTypeRef (Entries.facet? "type" entries) ∧
      IsItemsRef (Entries.facet? "items" entries) :=
    ⟨fun ⟨properties, enum, type, items⟩ => ⟨properties, enum, type, items⟩,
      fun ⟨properties, enum, type, items⟩ => ⟨properties, enum, type, items⟩⟩
  simp only [facets, not_and_or]

theorem isProperty_map_iff {entries : Entries} :
    IsProperty (.map entries) ↔ IsFlag (Entries.facet? "required" entries) ∧ HasFacets entries ∧
      ∀ entry ∈ inlineProperties entries, IsProperty entry.2 := by
  constructor
  · rintro (_ | _ | ⟨required, facets, inline⟩)
    exact ⟨required, facets, inline⟩
  · rintro ⟨required, facets, inline⟩
    exact .map required facets inline

theorem readProperties_rejectedBy {path : Path} {entries : Entries}
    (each : ∀ entry ∈ entries, ∀ path key, RejectedBy id (¬ IsProperty entry.2)
      (HasLongText entry.2) (readProperty path key entry.2)) :
    RejectedBy id (∃ entry ∈ entries, ¬ IsProperty entry.2)
      (∃ entry ∈ entries, entry.1.isPrintable = false ∨ HasLongText entry.2)
      (readProperties path entries) := by
  induction entries with
  | nil =>
    rw [readProperties]
    exact .of_returns rfl (by simp) (by simp)
  | cons entry rest ih =>
    obtain ⟨first, others⟩ := List.forall_mem_cons.mp each
    rw [readProperties]
    refine ((readKey_rejectedBy entry.1).bind fun name _ => (first _ name).bind fun _ _ =>
      (ih others).bind_returns fun _ => ⟨_, rfl⟩).congr ?_ ?_
    · simp
    · simp [or_assoc]

/-- A property is read exactly if it is well formed, with all that is inside of it, and all texts in
it can be written. -/
theorem readProperty_rejectedBy (path : Path) (key : String) (value : Value) :
    RejectedBy id (¬ IsProperty value) (HasLongText value) (readProperty path key value) := by
  induction size : sizeOf value using Nat.strong_induction_on generalizing value path key with
  | _ bound ih =>
    match value with
    | .scalar .null =>
      rw [readProperty]
      exact .of_returns rfl (not_not.mpr .null) (not_hasLongText_scalar _)
    | .scalar (.text type) =>
      rw [readProperty]
      exact .of_returns rfl (not_not.mpr (.text type)) (not_hasLongText_scalar _)
    | .scalar (.bool _) | .scalar (.int _) | .scalar (.float _) | .scalar (.timestamp _)
    | .scalar (.bytes _) | .list _ | .set _ | .pair _ _ =>
      simp only [readProperty]
      exact .defect (by rintro ⟨⟩)
    | .map entries =>
      -- What is inside is smaller, wherever it is read.
      have inner : RejectedBy id _ _ (readProperties path (inlineProperties entries)) :=
        readProperties_rejectedBy fun entry member path key =>
          ih _ (size ▸ sizeOf_lt_of_mem_inlineProperties member) path key entry.2 rfl
      rw [readProperty]
      refine (readRequired_rejectedBy.bind fun _ _ => readSection_rejectedBy.bind fun _ _ =>
        inner.bind fun _ _ => readEnum_rejectedBy.bind fun _ _ => readType_rejectedBy.bind
          fun _ _ => readItems_rejectedBy.bind fun _ _ => readText_rejectedBy.bind_returns
            fun _ => ⟨_, rfl⟩).congr ?_ ?_
      · simp only [isProperty_map_iff, not_and_or, not_hasFacets_iff, not_forall, exists_prop,
          or_false]
        exact iff_of_eq (by ac_rfl)
      · rw [hasLongText_iff, hasLongFacet_map_iff, declaredProperties]
        simp only [and_or_left, exists_or, false_or]
        exact iff_of_eq (by ac_rfl)

/-! ### Types -/

/-- A declaration of a type is well formed but for its properties. -/
inductive IsOutlined : Value → Prop where
  | null : IsOutlined .null
  | text (type : String) : IsOutlined (.text type)
  | map {entries : Entries} (facets : HasFacets entries) : IsOutlined (.map entries)

theorem isTypeDecl_iff {value : Value} :
    IsTypeDecl value ↔
      IsOutlined value ∧ ∀ entry ∈ declaredProperties value, IsProperty entry.2 := by
  constructor
  · rintro (_ | _ | ⟨facets, inline⟩)
    · exact ⟨.null, by simp [declaredProperties]⟩
    · exact ⟨.text _, by simp [declaredProperties]⟩
    · exact ⟨.map facets, inline⟩
  · rintro ⟨_ | _ | facets, inline⟩
    · exact .null
    · exact .text _
    · exact .map facets inline

theorem readKeys_rejectedBy (entries : Entries) :
    RejectedBy id False (∃ entry ∈ entries, entry.1.isPrintable = false)
      (entries.mapM fun (key, value) => do return (← readKey key, value)) :=
  (RejectedBy.mapM fun entry _ => (readKey_rejectedBy entry.1).bind_returns
    fun _ => ⟨_, rfl⟩).congr (by simp) Iff.rfl

/-- The first phase asks for all of a type but the inside of its properties. -/
theorem readTypeDecl_rejectedBy (name : String) (value : Value) :
    RejectedBy id (¬ IsOutlined value) (HasLongFacet value) (readTypeDecl name value) := by
  match value with
  | .scalar .null => exact .of_returns rfl (not_not.mpr .null) (by rintro ⟨⟨⟩, _⟩)
  | .scalar (.text type) => exact .of_returns rfl (not_not.mpr (.text type)) (by rintro ⟨⟨⟩, _⟩)
  | .scalar (.bool _) | .scalar (.int _) | .scalar (.float _) | .scalar (.timestamp _)
  | .scalar (.bytes _) | .list _ | .set _ | .pair _ _ => exact .defect (by rintro ⟨⟩)
  | .map entries =>
    have outlined : IsOutlined (.map entries) ↔ HasFacets entries :=
      ⟨fun | .map facets => facets, .map⟩
    have keys {path : Path} {properties : Entries}
        (read : readSection path "properties" (Entries.facet? "properties" entries) =
          .ok properties) :
        RejectedBy id False (∃ entry ∈ inlineProperties entries, entry.1.isPrintable = false)
          (properties.mapM fun (key, value) => do return (← readKey key, value)) :=
      inlineProperties_of_readSection read ▸ readKeys_rejectedBy properties
    rw [readTypeDecl]
    refine (readSection_rejectedBy.bind fun _ sectioned => readEnum_rejectedBy.bind fun _ _ =>
      readType_rejectedBy.bind fun _ _ => (keys sectioned).bind fun _ _ =>
        readText_rejectedBy.bind fun _ _ => readItems_rejectedBy.bind_returns
          fun _ => ⟨_, rfl⟩).congr ?_ ?_
    · rw [outlined, not_hasFacets_iff]
      simp only [false_or]
    · simp only [hasLongFacet_map_iff, false_or]
      exact iff_of_eq (by ac_rfl)

/-- The properties of a type are kept by the texts of their keys. -/
theorem properties_of_readTypeDecl {name : String} {value : Value} {decl : TypeDecl}
    (read : readTypeDecl name value = .ok decl) :
    (∀ entry ∈ declaredProperties value, entry.1.isPrintable = true) ∧ decl.properties =
      .ofList ((declaredProperties value).map fun (key, value) => (key.display, value)) := by
  match value with
  | .scalar .null | .scalar (.text _) =>
    cases read
    exact ⟨by simp [declaredProperties], rfl⟩
  | .map entries =>
    simp only [readTypeDecl, bind_ok_iff] at read
    obtain ⟨properties, sectioned, _, _, _, _, keyed, named, _, _, _, _, made⟩ := read
    cases made
    obtain rfl := inlineProperties_of_readSection sectioned
    have each : List.Forall₂ (fun entry named : _ × Value =>
        entry.1.isPrintable = true ∧ (entry.1.display, entry.2) = named)
        (inlineProperties entries) keyed := by
      refine ((mapM_ok_iff _ _ _).mp named).imp fun entry named read => ?_
      obtain ⟨name, given, made⟩ := (bind_ok_iff _ _ _).mp read
      obtain ⟨printable, rfl⟩ := readKey_ok_iff.mp given
      exact ⟨printable, Except.ok.inj made⟩
    refine ⟨fun entry listed => ?_, ?_⟩
    · obtain ⟨_, _, printable, _⟩ := exists_of_mem_left each listed
      exact printable
    · have same : keyed.map id =
          (inlineProperties entries).map fun entry => (entry.1.display, entry.2) :=
        map_eq_of_forall₂ (each.imp fun _ _ both => both.2.symm)
      rw [List.map_id] at same
      exact congrArg Table.ofList same

/-! ### Documents -/

/-- No two keys have the same text. A key that cannot be written has none. -/
def HasDistinctKeys (entries : Entries) : Prop :=
  ((entries.filter (·.1.isPrintable)).map (·.1.display)).Nodup

instance (entries : Entries) : Decidable (HasDistinctKeys entries) :=
  inferInstanceAs (Decidable (List.Nodup _))

theorem HasDistinctKeys.nodup {entries : Entries} (distinct : HasDistinctKeys entries)
    (printable : ∀ entry ∈ entries, entry.1.isPrintable = true) :
    (entries.map (·.1.display)).Nodup := by
  rwa [HasDistinctKeys, List.filter_eq_self.mpr printable] at distinct

/-- The second phase asks for the properties of all types that are kept. -/
theorem ofSchema_rejectedBy (schema : Schema) :
    RejectedBy id
      (∃ decl ∈ schema.types.entries, ∃ entry ∈ decl.2.properties.entries, ¬ IsProperty entry.2)
      (∃ decl ∈ schema.types.entries, ∃ entry ∈ decl.2.properties.entries, HasLongText entry.2)
      (ofSchema schema) := by
  have node (decl : String × TypeDecl) : RejectedBy id
      (∃ entry ∈ decl.2.properties.entries, ¬ IsProperty entry.2)
      (∃ entry ∈ decl.2.properties.entries, HasLongText entry.2)
      (readNode schema decl.1 decl.2) := by
    rw [readNode]
    exact (RejectedBy.mapM fun entry _ => readProperty_rejectedBy _ entry.1 entry.2).bind_returns
      fun _ => ⟨_, rfl⟩
  rw [ofSchema]
  exact (RejectedBy.mapM fun decl _ => (node decl).bind_returns fun _ => ⟨_, rfl⟩).bind_returns
    fun _ => ⟨_, rfl⟩

/-- No declaration hides another one, and no property hides another one, so what is found in the
schema is what is declared. -/
theorem exists_property_iff {types : Entries} {decls : List (String × TypeDecl)}
    (reads : AreReadAs types decls) (distinct : HasDistinctKeys types)
    (distinct' : ∀ entry ∈ types, HasDistinctKeys (declaredProperties entry.2))
    (bad : Value → Prop) :
    (∃ decl ∈ (Table.ofList decls).entries, ∃ entry ∈ decl.2.properties.entries, bad entry.2) ↔
      ∃ entry ∈ types, ∃ inner ∈ declaredProperties entry.2, bad inner.2 := by
  have printable : ∀ entry ∈ types, entry.1.isPrintable = true := by
    intro entry listed
    obtain ⟨_, _, named, _⟩ := exists_of_mem_left reads listed
    exact (readKey_ok_iff.mp named).1
  have entries : (Table.ofList decls).entries = decls :=
    Table.entries_ofList (reads.keys ▸ distinct.nodup printable)
  have inner {entry : Scalar × Value} {decl : String × TypeDecl} (listed : entry ∈ types)
      (read : readTypeDecl decl.1 entry.2 = .ok decl.2) :
      (∃ entry ∈ decl.2.properties.entries, bad entry.2) ↔
        ∃ inner ∈ declaredProperties entry.2, bad inner.2 := by
    obtain ⟨written, kept⟩ := properties_of_readTypeDecl read
    rw [kept, Table.entries_ofList
      (by simpa [Function.comp_def] using (distinct' entry listed).nodup written)]
    simp only [List.mem_map, exists_exists_and_eq_and]
  rw [entries]
  constructor
  · rintro ⟨decl, member, found⟩
    obtain ⟨entry, listed, _, read⟩ := exists_of_mem_right reads member
    exact ⟨entry, listed, (inner listed read).mp found⟩
  · rintro ⟨entry, listed, found⟩
    obtain ⟨decl, member, _, read⟩ := exists_of_mem_left reads listed
    exact ⟨decl, member, (inner listed read).mpr found⟩

theorem readResources_eq_nil {document : Entries}
    (plain : ∀ entry ∈ document, ∀ key, entry.1 = .text key → isResourceKey key = false) :
    readResources document = .ok [] := by
  induction document with
  | nil => rfl
  | cons entry rest ih =>
    obtain ⟨first, others⟩ := List.forall_mem_cons.mp plain
    obtain ⟨key, value⟩ := entry
    cases key with
    | text key =>
      rw [readResources, if_neg (by simp [first key rfl])]
      exact ih others
    | null | bool | int | float | timestamp | bytes => exact ih others

theorem ofDocument_rejectedBy {document types : Entries}
    (plain : ∀ entry ∈ document, ∀ key, entry.1 = .text key → isResourceKey key = false)
    (declared : Entries.facet? "types" document = some (.map types)) :
    RejectedBy id (∃ entry ∈ types, ¬ IsOutlined entry.2)
      ((∃ title, Entries.facet? "title" document = some title ∧ title.isPrintable = false) ∨
        ∃ entry ∈ types, entry.1.isPrintable = false ∨ HasLongFacet entry.2)
      (ofDocument document) := by
  have decls := RejectedBy.mapM fun entry (_ : entry ∈ types) =>
    (readKey_rejectedBy entry.1).bind fun name _ =>
      (readTypeDecl_rejectedBy name entry.2).bind_returns
        (f := fun decl => pure (name, decl)) fun _ => ⟨_, rfl⟩
  rw [ofDocument, declared, readResources_eq_nil plain]
  refine (readText_rejectedBy.bind fun _ _ => decls.bind_returns fun _ => ⟨_, rfl⟩).congr ?_ Iff.rfl
  simp

theorem types_of_ofDocument_plain {document types : Entries} {schema : Schema}
    (declared : Entries.facet? "types" document = some (.map types))
    (read : ofDocument document = .ok schema) :
    ∃ decls, AreReadAs types decls ∧ schema.types = .ofList decls := by
  simp only [ofDocument, declared, bind_ok_iff] at read
  obtain ⟨_, _, _, sectioned, decls, reads, _, _, made⟩ := read
  cases sectioned
  cases made
  exact ⟨decls, mapM_readTypeDecl_ok_iff.mp reads, rfl⟩

/-- The types of a document are accepted exactly if every declaration is well formed and all texts
that are asked for can be written. Otherwise there is a defect of the schema or such a text. -/
theorem readGraph_rejectedBy {document types : Entries}
    (plain : ∀ entry ∈ document, ∀ key, entry.1 = .text key → isResourceKey key = false)
    (declared : Entries.facet? "types" document = some (.map types))
    (distinct : HasDistinctKeys types)
    (distinct' : ∀ entry ∈ types, HasDistinctKeys (declaredProperties entry.2)) :
    RejectedBy .ofRead (¬ ∀ entry ∈ types, IsTypeDecl entry.2)
      ((∃ title, Entries.facet? "title" document = some title ∧ title.isPrintable = false) ∨
        ∃ entry ∈ types, entry.1.isPrintable = false ∨ HasLongText entry.2)
      (readGraph document).outcome := by
  rw [outcome_readGraph]
  -- Either phase checks a part of each declaration.
  have second (schema : Schema) (read : ofDocument document = .ok schema) :
      RejectedBy id (∃ entry ∈ types, ∃ inner ∈ declaredProperties entry.2, ¬ IsProperty inner.2)
        (∃ entry ∈ types, ∃ inner ∈ declaredProperties entry.2, HasLongText inner.2)
        (ofSchema schema) := by
    obtain ⟨decls, reads, made⟩ := types_of_ofDocument_plain declared read
    have ends := ofSchema_rejectedBy schema
    rw [made] at ends
    exact ends.congr (exists_property_iff reads distinct distinct' (¬ IsProperty ·))
      (exists_property_iff reads distinct distinct' HasLongText)
  refine (((ofDocument_rejectedBy plain declared).bind second).mapError Fault.ofRead).congr ?_ ?_
  · simp only [isTypeDecl_iff, not_forall, not_and_or, exists_prop, and_or_left, exists_or]
  · have unfolded : (∃ entry ∈ types, entry.1.isPrintable = false ∨ HasLongText entry.2) ↔
        ∃ entry ∈ types, entry.1.isPrintable = false ∨ HasLongFacet entry.2 ∨
          ∃ inner ∈ declaredProperties entry.2, HasLongText inner.2 :=
      exists_congr fun entry => and_congr_right fun _ => or_congr_right hasLongText_iff
    rw [unfolded]
    simp only [and_or_left, exists_or, or_assoc]

/-- The lid of a box has hinges, which are required as it is given. -/
def lid (required : Value) : Value :=
  .map [(.text "properties", .map [(.text "hinges", .map [
    (.text "items", .map [(.text "type", .text "Screw")]), (.text "required", required)])])]

/-- Boxes have a lid. The number of the last type is its name. -/
def boxTypes (required : Value) : Entries :=
  [(.text "Box", .map [(.text "properties", .map [(.text "lid?", lid required)])]),
    (.text "Screw", .null),
    (.int 2, .map [(.text "type", .list [.text "Box"]),
      (.text "properties", .scalar (.bool false))])]

def boxDocument (required : Value) : Entries :=
  [(.text "title", .text "Boxes"), (.text "types", .map (boxTypes required))]

theorem lid_isProperty_iff {required : Value} :
    IsProperty (lid required) ↔ ∃ flag, required = .scalar (.bool flag) := by
  constructor
  · intro accepted
    cases accepted with
    | map _ _ inline =>
      cases inline _ List.mem_cons_self with
      | map required =>
        cases required with
        | bool flag => exact ⟨flag, rfl⟩
  · rintro ⟨flag, rfl⟩
    have hinges : IsProperty (.map [(.text "items", .map [(.text "type", .text "Screw")]),
        (.text "required", .scalar (.bool flag))]) :=
      .map (.bool flag) ⟨.absent, .absent, .absent, .nested (.written .text)⟩
        (List.forall_mem_nil _)
    exact .map .absent ⟨.entries _, .absent, .absent, .direct .absent⟩
      (List.forall_mem_singleton.mpr hinges)

/-- Only the value of a facet inside of the lid decides whether the document is accepted. -/
theorem boxTypes_isTypeDecl_iff {required : Value} :
    (∀ entry ∈ boxTypes required, IsTypeDecl entry.2) ↔
      ∃ flag, required = .scalar (.bool flag) := by
  rw [← lid_isProperty_iff]
  constructor
  · intro accepted
    cases accepted _ List.mem_cons_self with
    | map _ inline => exact inline _ List.mem_cons_self
  · intro accepted
    have box : IsTypeDecl (.map [(.text "properties", .map [(.text "lid?", lid required)])]) :=
      .map ⟨.entries _, .absent, .absent, .direct .absent⟩ (List.forall_mem_singleton.mpr accepted)
    have two : IsTypeDecl (.map [(.text "type", .list [.text "Box"]),
        (.text "properties", .scalar (.bool false))]) :=
      .map ⟨.vacant rfl, .absent, .written .single, .direct .absent⟩ (List.forall_mem_nil _)
    simpa [boxTypes] using ⟨box, .null, two⟩

theorem boxTypes_hasDistinctKeys (required : Value) : HasDistinctKeys (boxTypes required) := by
  have printable : (boxTypes required).filter (·.1.isPrintable) = boxTypes required := by
    have two : (Scalar.int 2).isPrintable = true := by decide +kernel
    have text (name : String) : (Scalar.text name).isPrintable = true := rfl
    simp [boxTypes, text, two]
  have keys : (boxTypes required).map (·.1.display) = ["Box", "Screw", "2"] := rfl
  rw [HasDistinctKeys, printable, keys]
  decide

/-- Hinges may be required or not, but what is neither is a defect. -/
theorem readGraph_rejectedBy_boxes :
    (∀ required,
      (∀ entry ∈ boxDocument required, ∀ key, entry.1 = .text key → isResourceKey key = false) ∧
      Entries.facet? "types" (boxDocument required) = some (.map (boxTypes required)) ∧
      HasDistinctKeys (boxTypes required) ∧
      ∀ entry ∈ boxTypes required, HasDistinctKeys (declaredProperties entry.2)) ∧
    (∃ g, (readGraph (boxDocument (.scalar (.bool false)))).outcome = .ok g) ∧
    ∃ error, (readGraph (boxDocument .null)).outcome = .error (.schema error) := by
  have plain (required : Value) : ∀ entry ∈ boxDocument required, ∀ key, entry.1 = .text key →
      isResourceKey key = false := by
    simp [boxDocument, isResourceKey]
  have distinct := boxTypes_hasDistinctKeys
  have distinct' (required : Value) : ∀ entry ∈ boxTypes required,
      HasDistinctKeys (declaredProperties entry.2) := by
    intro entry listed
    simp only [boxTypes, List.mem_cons, List.not_mem_nil, or_false] at listed
    rcases listed with rfl | rfl | rfl
    · exact List.nodup_singleton "lid?"
    · exact List.nodup_nil
    · exact List.nodup_nil
  have ends (required : Value) := readGraph_rejectedBy (plain required) rfl (distinct required)
    (distinct' required)
  have writable (required : Value)
      (printable : ∀ entry ∈ boxTypes required,
        entry.1.isPrintable = true ∧ entry.2.isPrintable = true) :
      ¬ ((∃ title, Entries.facet? "title" (boxDocument required) = some title ∧
          title.isPrintable = false) ∨
        ∃ entry ∈ boxTypes required, entry.1.isPrintable = false ∨ HasLongText entry.2) := by
    rintro (⟨title, found, long⟩ | ⟨entry, listed, long⟩)
    · cases found
      cases long
    · obtain ⟨key, value⟩ := printable entry listed
      exact long.elim (by simp [key]) (not_hasLongText_of_isPrintable value)
  refine ⟨fun required => ⟨plain required, rfl, distinct required, distinct' required⟩,
    (ends _).returns_iff.mpr ⟨?_, writable _ (by decide +kernel)⟩,
    ((ends _).rejected_iff (writable _ (by decide +kernel))).mpr ?_⟩
  · rw [boxTypes_isTypeDecl_iff]
    simp
  · rw [boxTypes_isTypeDecl_iff]
    simp

/-- A title that cannot be written is in the way of types that are all well formed. -/
theorem readGraph_longTitle :
    (∀ entry ∈ boxTypes (.scalar (.bool true)), IsTypeDecl entry.2) ∧
    (readGraph [(.text "title", .scalar .longInteger),
      (.text "types", .map (boxTypes (.scalar (.bool true))))]).outcome = .error .longNumber := by
  refine ⟨boxTypes_isTypeDecl_iff.mpr ⟨true, rfl⟩, ?_⟩
  have long : readText (some (.scalar .longInteger)) = .error .longNumber := by
    rw [readText, Option.all_some, Value.isPrintable, Scalar.isPrintable_longInteger]
    rfl
  rw [outcome_readGraph, ofDocument]
  change (readText (some (.scalar .longInteger)) >>= _ >>= _).mapError _ = _
  rw [long]
  rfl

end TypeGraph

end RamlTypes
