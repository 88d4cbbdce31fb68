import Mathlib.Logic.Relation
import RamlTypes.Proofs.AcceptedDeclarations

/-!
# Short forms

What a declaration leaves out is filled in, so there are short forms and longer ones: a type alone
for a mapping with this type, a text for a list of one, `X[]` for an array with the items `X`, and
no facet at all for the implicit type or for what the key says about being required. Types and
properties have different defaults. A step lengthens one declaration, which may stand inside of
others. Documents that are joined by such steps, forward or back, are read alike: as the same graph,
or with the same defect.
-/
namespace RamlTypes

/-! ### Mappings -/

namespace Entries

/-- In the mapping the value of one entry is replaced. -/
inductive Replaced (key : Scalar) (value value' : Value) : Entries → Entries → Prop where
  | between (before after : Entries) :
      Replaced key value value' (before ++ (key, value) :: after) (before ++ (key, value') :: after)

/-- The mappings have the same facets, but for the named ones. -/
def AgreeBut (names : List String) (entries entries' : Entries) : Prop :=
  ∀ name ∉ names, facet? name entries = facet? name entries'

theorem facet?_append (name : String) (entries entries' : Entries) :
    facet? name (entries ++ entries') = (facet? name entries).or (facet? name entries') :=
  List.lookup_append

namespace Replaced

variable {name : String} {value value' : Value} {entries entries' : Entries}

theorem agreeBut (replaced : Replaced (.text name) value value' entries entries') :
    AgreeBut [name] entries entries' := by
  obtain ⟨before, after⟩ := replaced
  intro other apart
  have key : Scalar.text name ≠ .text other := fun same => apart (by simp [Scalar.text.inj same])
  simp [facet?_append, facet?_cons, key]

/-- A facet is replaced, unless another entry hides it. -/
theorem facet?_eq (replaced : Replaced (.text name) value value' entries entries') :
    facet? name entries = facet? name entries' ∨
      facet? name entries = some value ∧ facet? name entries' = some value' := by
  obtain ⟨before, after⟩ := replaced
  cases hidden : facet? name before with
  | some other => exact .inl (by simp [facet?_append, hidden])
  | none => exact .inr (by simp [facet?_append, facet?_cons, hidden])

theorem forall₂ {key : Scalar} {related : Scalar × Value → Scalar × Value → Prop}
    (replaced : Replaced key value value' entries entries') (refl : ∀ entry, related entry entry)
    (new : related (key, value) (key, value')) : List.Forall₂ related entries entries' := by
  obtain ⟨before, after⟩ := replaced
  have same (entries : Entries) : List.Forall₂ related entries entries :=
    List.forall₂_same.mpr fun entry _ => refl entry
  exact List.rel_append (same before) (.cons new (same after))

end Replaced

theorem AgreeBut.weaken {names names' : List String} {entries entries' : Entries}
    (others : AgreeBut names entries entries') (included : names ⊆ names') :
    AgreeBut names' entries entries' :=
  fun name apart => others name fun named => apart (included named)

end Entries

namespace TypeGraph

open Schema Entries

/-! ### Short and long declarations -/

/-- The facet is missing or null. -/
inductive IsLeftOut : Option Value → Prop where
  | absent : IsLeftOut none
  | null : IsLeftOut (some .null)

/-- The first mapping is a short form of the second one, whatever it declares. -/
inductive ShortFacets (short long : Entries) : Prop where
  | single {type : String} (given : facet? "type" short = some (.text type))
      (listed : facet? "type" long = some (.list [.text type]))
      (others : AgreeBut ["type"] short long)
  | array {item : String} {items : Value} (named : item ≠ "") (bare : Text.trimmed item = item)
      (given : facet? "type" short = some (.text (item ++ "[]")))
      (noItems : IsLeftOut (facet? "items" short))
      (typed : IsLeftOut (facet? "type" long) ∨ facet? "type" long = some (.text "array"))
      (listed : facet? "items" long = some items) (declared : Schema.Declares items item)
      (others : AgreeBut ["type", "items"] short long)

/-- The first mapping leaves out a type that the second one gives. -/
structure LeavesOut (type : String) (short long : Entries) : Prop where
  untyped : IsLeftOut (facet? "type" short)
  noItems : IsLeftOut (facet? "items" short)
  given : facet? "type" long = some (.text type)
  others : AgreeBut ["type"] short long

/-- Under the key the first declaration of a property is a short form of the second one. -/
inductive ShortProperty : String → Value → Value → Prop where
  | null {key : String} : ShortProperty key .null (.map [(.text "type", .text "string")])
  | text {key : String} (type : String) :
      ShortProperty key (.text type) (.map [(.text "type", .text type)])
  | facets {key : String} {short long : Entries} (shorter : ShortFacets short long) :
      ShortProperty key (.map short) (.map long)
  | string {key : String} {short long : Entries} (implicit : LeavesOut "string" short long)
      (plain : inlineProperties short = []) : ShortProperty key (.map short) (.map long)
  | object {key : String} {short long : Entries} (implicit : LeavesOut "object" short long)
      (nested : inlineProperties short ≠ []) :
      ShortProperty key (.map short) (.map long)
  | required {key : String} {short long : Entries} {flag : Bool}
      (unsaid : facet? "required" short = none)
      (said : facet? "required" long = some (.scalar (.bool flag)))
      (byKey : flag = false ↔ key.toList.getLast? = some '?')
      (others : AgreeBut ["required"] short long) : ShortProperty key (.map short) (.map long)
  | inside {key : String} {inner : Scalar} {value value' : Value}
      {inline inline' entries entries' : Entries}
      (placed : Replaced (.text "properties") (.map inline) (.map inline') entries entries')
      (replaced : Replaced inner value value' inline inline')
      (shorter : ShortProperty inner.display value value') :
      ShortProperty key (.map entries) (.map entries')

/-- The first declaration of a type is a short form of the second one. -/
inductive ShortType : Value → Value → Prop where
  | null : ShortType .null (.map [(.text "type", .text "object")])
  | text (type : String) : ShortType (.text type) (.map [(.text "type", .text type)])
  | facets {short long : Entries} (shorter : ShortFacets short long) :
      ShortType (.map short) (.map long)
  | string {short long : Entries} (implicit : LeavesOut "string" short long)
      (enum : ¬ IsLeftOut (facet? "enum" short)) : ShortType (.map short) (.map long)
  | object {short long : Entries} (implicit : LeavesOut "object" short long)
      (plain : IsLeftOut (facet? "enum" short)) : ShortType (.map short) (.map long)
  | inside {inner : Scalar} {value value' : Value} {inline inline' entries entries' : Entries}
      (placed : Replaced (.text "properties") (.map inline) (.map inline') entries entries')
      (replaced : Replaced inner value value' inline inline')
      (shorter : ShortProperty inner.display value value') :
      ShortType (.map entries) (.map entries')

/-- In the second document one declaration has a longer form. -/
inductive ShortDocument (document document' : Entries) : Prop where
  | inside {key : Scalar} {value value' : Value} {types types' : Entries}
      (placed : Replaced (.text "types") (.map types) (.map types') document document')
      (replaced : Replaced key value value' types types') (shorter : ShortType value value')

/-! ### Types -/

variable {path : Path} {names : List String} {short long : Entries}
  {related : Entries → Entries → Prop}

/-- The types and then the items are read alike, and give the same type text where the given type is
the implicit one. -/
def TypesAlike (path : Path) (implicit : String) (short long : Entries) : Prop :=
  Alike
    (fun type type' => Alike
      (fun items items' => typeText implicit type items = typeText implicit type' items')
      (readItems path (facet? "items" short)) (readItems path (facet? "items" long)))
    (readType path (facet? "type" short)) (readType path (facet? "type" long))

theorem TypesAlike.of_agree {implicit : String} (type : facet? "type" short = facet? "type" long)
    (items : facet? "items" short = facet? "items" long) : TypesAlike path implicit short long := by
  rw [TypesAlike, ← type, ← items]
  refine .refl (fun type => ?_) _
  refine .refl (fun items => ?_) _
  rfl

theorem TypesAlike.returned {implicit : String} {type type' items items' : Option String}
    (here : readType path (facet? "type" short) = .ok type)
    (inside : readItems path (facet? "items" short) = .ok items)
    (here' : readType path (facet? "type" long) = .ok type')
    (inside' : readItems path (facet? "items" long) = .ok items')
    (same : typeText implicit type items = typeText implicit type' items') :
    TypesAlike path implicit short long := by
  rw [TypesAlike, here, inside, here', inside']
  exact .returned (.returned same)

theorem IsLeftOut.readType_eq {facet : Option Value} (out : IsLeftOut facet) :
    readType path facet = .ok none := by
  cases out <;> rfl

theorem IsLeftOut.readItems_eq {facet : Option Value} (out : IsLeftOut facet) :
    readItems path facet = .ok none := by
  cases out <;> rfl

theorem isSome_iff_of_readEnum {facet : Option Value} {literals : Option (List Value)}
    (read : readEnum path facet = .ok literals) : literals.isSome = true ↔ ¬ IsLeftOut facet := by
  have sound : IsLiterals facet :=
    not_not.mp (readEnum_rejectedBy.returns_iff.mp ⟨literals, read⟩).1
  cases sound with
  | absent =>
    cases read
    exact iff_of_false (by simp) (not_not.mpr .absent)
  | null =>
    cases read
    exact iff_of_false (by simp) (not_not.mpr .null)
  | list =>
    cases read
    exact iff_of_true rfl (by rintro ⟨⟩)

theorem readItems_of_declares {value : Value} {item : String}
    (declared : Schema.Declares value item) :
    readItems path (some value) = .ok (some item) := by
  cases declared with
  | text => rfl
  | facet found written =>
    rw [readItems, found]
    exact readType_of_isTypeFacet written

/-- Both forms give a type, so it does not matter which one would be implicit. -/
theorem ShortFacets.typesAlike (shorter : ShortFacets short long) (implicit : String) :
    TypesAlike path implicit short long := by
  cases shorter with
  | single given listed others =>
    rw [TypesAlike, others "items" (by decide), given, listed]
    refine .returned (.refl (fun items => ?_) _)
    rfl
  | @array item items named bare given noItems typed listed declared others =>
    -- Items alone make an array, so the type may be left out in front of them.
    have array : ∃ type, readType path (facet? "type" long) = .ok type ∧
        type.getD "array" = "array" := by
      rcases typed with out | written
      · exact ⟨none, out.readType_eq, rfl⟩
      · exact ⟨some "array", by rw [written]; rfl, rfl⟩
    obtain ⟨type, read, isArray⟩ := array
    have given : readType path (facet? "type" short) = .ok (some (item ++ "[]")) := by
      rw [given]
      rfl
    have listed : readItems path (facet? "items" long) = .ok (some item) := by
      rw [listed, readItems_of_declares declared]
    refine .returned given noItems.readItems_eq read listed ?_
    have text : Text.trimmed "array" = "array" := by decide
    simp [typeText, isArray, text, named, bare]

theorem ShortFacets.agreeBut (shorter : ShortFacets short long) :
    AgreeBut ["type", "items"] short long := by
  cases shorter with
  | single _ _ others => exact others.weaken (by simp)
  | array _ _ _ _ _ _ _ others => exact others

theorem LeavesOut.agreeBut {type : String} (implicit : LeavesOut type short long) :
    AgreeBut ["type", "items"] short long :=
  implicit.others.weaken (by simp)

theorem LeavesOut.typesAlike {type : String} (implicit : LeavesOut type short long) :
    TypesAlike path type short long := by
  have items := implicit.others "items" (by decide)
  have given : readType path (facet? "type" long) = .ok (some type) := by
    rw [implicit.given]
    rfl
  exact .returned implicit.untyped.readType_eq implicit.noItems.readItems_eq given
    (items ▸ implicit.noItems.readItems_eq) rfl

/-! ### Sections -/

/-- What is read for a section is what was replaced, or the same. -/
theorem alike_readSection {part : String} {inline inline' entries entries' : Entries}
    (placed : Replaced (.text part) (.map inline) (.map inline') entries entries')
    (refl : ∀ entries, related entries entries) (same : related inline inline') :
    Alike related (readSection path part (facet? part entries))
      (readSection path part (facet? part entries')) := by
  rcases placed.facet?_eq with equal | ⟨found, found'⟩
  · exact .of_eq refl (by rw [equal])
  · rw [found, found']
    exact .returned same

/-! ### Properties -/

variable {key : String}

/-- A property with the given parts. -/
def propertyOf (key : String) (required : Bool) (children : List Property)
    (literals : Option (List Value)) (type items : Option String) (description : String) :
    Property where
  name := (propertyName key).1
  type := .parse (typeText (if children.isEmpty then "string" else "object") type items)
  required := required
  children := children
  literals := literals
  description := description

/-- The children of a property are what its section is read as. -/
theorem readProperty_map (path : Path) (key : String) (entries : Entries) :
    readProperty path key (.map entries) = (do
      let required ← readRequired path (propertyName key).2 (facet? "required" entries)
      let inline ← readSection path "properties" (facet? "properties" entries)
      let children ← readProperties path inline
      let literals ← readEnum path (facet? "enum" entries)
      let type ← readType path (facet? "type" entries)
      let items ← readItems path (facet? "items" entries)
      let description ← readText (facet? "description" entries)
      return propertyOf key required children literals type items description) := by
  rw [readProperty]
  refine bind_congr fun required => ?_
  cases sectioned : readSection path "properties" (facet? "properties" entries) with
  | error => rfl
  | ok inline =>
    -- A section that is no mapping has failed here, and else it is where the children come from.
    rw [inlineProperties_of_readSection sectioned]
    rfl

theorem readProperty_typed (type : String) :
    readProperty path key (.map [(.text "type", .text type)]) =
      .ok (readProperty.plain key type) := by
  have nothing : readProperties path [] = .ok [] := by rw [readProperties]
  have required : facet? "required" [(.text "type", .text type)] = none := rfl
  have sections : facet? "properties" [(.text "type", .text type)] = none := rfl
  have enum : facet? "enum" [(.text "type", .text type)] = none := rfl
  have items : facet? "items" [(.text "type", .text type)] = none := rfl
  have description : facet? "description" [(.text "type", .text type)] = none := rfl
  have typed : facet? "type" [(.text "type", .text type)] = some (.text type) := rfl
  rw [readProperty_map, required, sections, enum, items, description, typed]
  simp only [readRequired, readSection, ok_bind, nothing]
  rfl

theorem readProperty_map_congr
    (required : readRequired path (propertyName key).2 (facet? "required" short) =
      readRequired path (propertyName key).2 (facet? "required" long))
    (sections : Alike
      (fun inline inline' => readProperties path inline = readProperties path inline')
      (readSection path "properties" (facet? "properties" short))
      (readSection path "properties" (facet? "properties" long)))
    (enum : facet? "enum" short = facet? "enum" long)
    (description : facet? "description" short = facet? "description" long)
    (types : ∀ children, readProperties path (inlineProperties short) = .ok children →
      TypesAlike path (if children.isEmpty then "string" else "object") short long) :
    readProperty path key (.map short) = readProperty path key (.map long) := by
  rw [← alike_eq_iff, readProperty_map, readProperty_map, required, enum, description]
  refine .bind_same fun required _ => sections.attach.bind fun inline inline' given => ?_
  obtain ⟨same, sectioned, _⟩ := given
  -- From here on the children are the same, and they are all that is kept of the sections.
  rw [← same]
  refine .bind_same fun children read => .bind_same fun literals _ => ?_
  rw [← inlineProperties_of_readSection sectioned] at read
  refine (types children read).bind fun type type' inside => inside.bind fun items items' equal =>
    .bind_same fun description _ => .returned ?_
  rw [propertyOf, propertyOf, equal]

/-- Where only the type is given in another way, it remains to compare the types. -/
theorem readProperty_retyped (others : AgreeBut ["type", "items"] short long)
    (types : ∀ children, readProperties path (inlineProperties short) = .ok children →
      TypesAlike path (if children.isEmpty then "string" else "object") short long) :
    readProperty path key (.map short) = readProperty path key (.map long) :=
  readProperty_map_congr (by rw [others "required" (by decide)])
    (.of_eq (fun _ => rfl) (by rw [others "properties" (by decide)])) (others "enum" (by decide))
    (others "description" (by decide)) types

/-- What is read under the text of a key is the same under the name that it is read as. -/
theorem readKey_bind_congr {β : Type} {inner : Scalar} {f g : String → Except ReadFault β}
    (same : f inner.display = g inner.display) : (readKey inner >>= f) = (readKey inner >>= g) := by
  rw [readKey]
  split
  · exact same
  · rfl

theorem readProperties_replaced {inner : Scalar} {value value' : Value} {inline inline' : Entries}
    (replaced : Replaced inner value value' inline inline')
    (same : ∀ path, readProperty path inner.display value =
      readProperty path inner.display value') :
    readProperties path inline = readProperties path inline' := by
  obtain ⟨before, after⟩ := replaced
  induction before with
  | nil =>
    rw [List.nil_append, List.nil_append, readProperties, readProperties]
    exact readKey_bind_congr (by rw [same])
  | cons entry rest ih =>
    obtain ⟨key, first⟩ := entry
    rw [List.cons_append, List.cons_append, readProperties, readProperties, ih]

theorem length_of_readProperties {entries : Entries} {properties : List Property}
    (read : readProperties path entries = .ok properties) :
    properties.length = entries.length := by
  induction entries generalizing properties with
  | nil =>
    rw [readProperties] at read
    cases read
    rfl
  | cons entry rest ih =>
    obtain ⟨key, value⟩ := entry
    simp only [readProperties, bind_ok_iff] at read
    obtain ⟨_, _, first, _, others, behind, made⟩ := read
    cases made
    rw [List.length_cons, List.length_cons, ih behind]

theorem ShortProperty.readProperty_eq {value value' : Value}
    (shorter : ShortProperty key value value') (path : Path) :
    readProperty path key value = readProperty path key value' := by
  -- What is inside of a property is read at another path.
  induction shorter generalizing path with
  | null => rw [readProperty, readProperty_typed]
  | text type => rw [readProperty, readProperty_typed]
  | facets shorter =>
    exact readProperty_retyped shorter.agreeBut fun _ _ => shorter.typesAlike _
  -- Whether a property has children decides what its implicit type is.
  | string implicit plain =>
    refine readProperty_retyped implicit.agreeBut fun children read => ?_
    rw [plain, readProperties] at read
    cases read
    exact implicit.typesAlike
  | object implicit nested =>
    refine readProperty_retyped implicit.agreeBut fun children read => ?_
    have nonempty : children ≠ [] := by
      rw [← List.length_pos_iff, length_of_readProperties read]
      exact List.length_pos_iff.mpr nested
    rw [if_neg (by simpa using nonempty)]
    exact implicit.typesAlike
  | @required key _ _ flag unsaid said byKey others =>
    refine readProperty_map_congr ?_
      (.of_eq (fun _ => rfl) (by rw [others "properties" (by decide)]))
      (others "enum" (by decide)) (others "description" (by decide)) fun _ _ => ?_
    · rw [unsaid, said, readRequired, readRequired, propertyName]
      split_ifs with optional
      · rw [byKey.mpr optional]
      · rw [Bool.eq_true_of_not_eq_false (mt byKey.mp optional)]
    · exact .of_agree (others "type" (by decide)) (others "items" (by decide))
  | inside placed replaced shorter ih =>
    have others := placed.agreeBut
    refine readProperty_map_congr (by rw [others "required" (by decide)])
      (alike_readSection placed (fun _ => rfl) (readProperties_replaced replaced ih))
      (others "enum" (by decide)) (others "description" (by decide)) fun _ _ => ?_
    exact .of_agree (others "type" (by decide)) (others "items" (by decide))

/-! ### Types -/

/-- Under their names the declarations are read as the same property. -/
def SameProperty (entry entry' : String × Value) : Prop :=
  entry.1 = entry'.1 ∧
    ∀ path, readProperty path entry.1 entry.2 = readProperty path entry'.1 entry'.2

/-- In every schema the declarations give the same type. -/
def SameNode (decl decl' : TypeDecl) : Prop :=
  ∀ schema name, readNode schema name decl = readNode schema name decl'

theorem SameProperty.refl (entry : String × Value) : SameProperty entry entry :=
  ⟨rfl, fun _ => rfl⟩

/-- Under the same key, and under any name, the declarations give the same type. -/
def SameDecl (entry entry' : Scalar × Value) : Prop :=
  entry.1 = entry'.1 ∧
    ∀ name, Alike SameNode (readTypeDecl name entry.2) (readTypeDecl name entry'.2)

theorem sameNode {decl decl' : TypeDecl} (enum : decl.enum = decl'.enum)
    (description : decl.description = decl'.description)
    (types : typeText (if decl.enum.isSome then "string" else "object") decl.type decl.items =
      typeText (if decl.enum.isSome then "string" else "object") decl'.type decl'.items)
    (properties : List.Forall₂ SameProperty decl.properties.entries decl'.properties.entries) :
    SameNode decl decl' := by
  intro schema name
  simp only [enum] at types
  simp only [readNode, enum, description, types]
  refine congrArg (· >>= _) (mapM_eq_of_forall₂ (properties.imp ?_))
  rintro ⟨key, value⟩ ⟨key', value'⟩ ⟨named, same⟩
  obtain rfl : key = key' := named
  exact same _

/-- Under their keys the declarations are read as the same property. -/
def SameEntry (entry entry' : Scalar × Value) : Prop :=
  entry.1 = entry'.1 ∧
    ∀ path, readProperty path entry.1.display entry.2 = readProperty path entry'.1.display entry'.2

theorem SameEntry.refl (entry : Scalar × Value) : SameEntry entry entry :=
  ⟨rfl, fun _ => rfl⟩

/-- The keys are read as the same names. -/
theorem readKeys_alike {inline inline' : Entries} (same : List.Forall₂ SameEntry inline inline') :
    Alike (List.Forall₂ SameProperty)
      (inline.mapM fun (key, value) => do return (← readKey key, value))
      (inline'.mapM fun (key, value) => do return (← readKey key, value)) := by
  refine .mapM_forall₂ (same.imp ?_)
  rintro ⟨key, value⟩ ⟨key', value'⟩ ⟨named, same⟩
  obtain rfl : key = key' := named
  refine .bind_same fun name read => .returned ⟨rfl, ?_⟩
  obtain ⟨_, rfl⟩ := readKey_ok_iff.mp read
  exact same

theorem readTypeDecl_alike {name : String}
    (sections : Alike (List.Forall₂ SameEntry)
      (readSection ["types", name] "properties" (facet? "properties" short))
      (readSection ["types", name] "properties" (facet? "properties" long)))
    (enum : facet? "enum" short = facet? "enum" long)
    (description : facet? "description" short = facet? "description" long)
    (types : ∀ enum, readEnum ["types", name] (facet? "enum" short) = .ok enum →
      TypesAlike ["types", name] (if enum.isSome then "string" else "object") short long) :
    Alike SameNode (readTypeDecl name (.map short)) (readTypeDecl name (.map long)) := by
  rw [readTypeDecl, readTypeDecl, ← enum, ← description]
  refine sections.bind fun inline inline' same => .bind_same fun literals read => ?_
  -- The keys are read in between, so the items are compared once the names are there.
  refine (types literals read).bind fun type type' inside => ?_
  refine (readKeys_alike same).bind fun keyed keyed' same => .bind_same fun description _ => ?_
  refine inside.bind fun items items' equal => .returned ?_
  exact sameNode rfl rfl equal (Table.forall₂_ofList (fun _ _ same => same.1) same)

theorem readTypeDecl_retyped {name : String} (others : AgreeBut ["type", "items"] short long)
    (types : ∀ enum, readEnum ["types", name] (facet? "enum" short) = .ok enum →
      TypesAlike ["types", name] (if enum.isSome then "string" else "object") short long) :
    Alike SameNode (readTypeDecl name (.map short)) (readTypeDecl name (.map long)) := by
  refine readTypeDecl_alike (.of_eq (fun _ => List.forall₂_same.mpr fun _ _ => .refl _) ?_)
    (others "enum" (by decide)) (others "description" (by decide)) types
  rw [others "properties" (by decide)]

theorem ShortType.readTypeDecl_alike {value value' : Value} (shorter : ShortType value value')
    (name : String) : Alike SameNode (readTypeDecl name value) (readTypeDecl name value') := by
  cases shorter with
  | null => exact .returned (sameNode rfl rfl rfl .nil)
  | text type => exact .returned (sameNode rfl rfl rfl .nil)
  | facets shorter =>
    exact readTypeDecl_retyped shorter.agreeBut fun _ _ => shorter.typesAlike _
  -- Whether a type has literals decides what its implicit type is.
  | string implicit enum =>
    refine readTypeDecl_retyped implicit.agreeBut fun literals read => ?_
    rw [if_pos ((isSome_iff_of_readEnum read).mpr enum)]
    exact implicit.typesAlike
  | object implicit plain =>
    refine readTypeDecl_retyped implicit.agreeBut fun literals read => ?_
    rw [if_neg (mt (isSome_iff_of_readEnum read).mp (not_not.mpr plain))]
    exact implicit.typesAlike
  | inside placed replaced shorter =>
    have others := placed.agreeBut
    refine TypeGraph.readTypeDecl_alike
      (alike_readSection placed (fun _ => List.forall₂_same.mpr fun _ _ => .refl _) ?_)
      (others "enum" (by decide)) (others "description" (by decide)) fun _ _ => ?_
    · -- The step leaves the keys alone.
      exact replaced.forall₂ (fun _ => .refl _) ⟨rfl, shorter.readProperty_eq⟩
    · exact .of_agree (others "type" (by decide)) (others "items" (by decide))

/-! ### Schemas and documents -/

theorem readNode_of_contains {schema schema' : Schema} {name : String} {decl : TypeDecl}
    (known : schema.types.contains = schema'.types.contains) :
    readNode schema name decl = readNode schema' name decl := by
  rw [readNode, readNode, known]

/-- The schemas have the same resources, and declarations under the same names that give the same
types. -/
structure SameSchema (schema schema' : Schema) : Prop where
  title : schema.title = schema'.title
  types : List.Forall₂ (fun entry entry' => entry.1 = entry'.1 ∧ SameNode entry.2 entry'.2)
    schema.types.entries schema'.types.entries
  resources : schema.resources = schema'.resources

theorem SameSchema.contains_eq {schema schema' : Schema} (same : SameSchema schema schema') :
    schema.types.contains = schema'.types.contains :=
  Table.contains_congr
    (map_eq_of_forall₂ (same.types.imp fun _ _ given => given.1.symm)).symm

theorem SameSchema.ofSchema_eq {schema schema' : Schema} (same : SameSchema schema schema') :
    ofSchema schema = ofSchema schema' := by
  rw [ofSchema, ofSchema, same.title, same.resources]
  refine congrArg (· >>= _) (mapM_eq_of_forall₂ (same.types.imp ?_))
  rintro ⟨name, decl⟩ ⟨name', decl'⟩ ⟨named, here⟩
  obtain rfl : name = name' := named
  simp only [here schema name, readNode_of_contains same.contains_eq]

theorem readResources_replaced {value value' : Value} {document document' : Entries}
    (placed : Replaced (.text "types") value value' document document') :
    readResources document = readResources document' := by
  obtain ⟨before, after⟩ := placed
  induction before with
  | nil => rfl
  | cons entry rest ih =>
    obtain ⟨key, first⟩ := entry
    cases key with
    | text key => rw [List.cons_append, List.cons_append, readResources, readResources, ih]
    | null | bool | int | float | timestamp | bytes => exact ih

theorem ShortDocument.ofDocument_alike {document document' : Entries}
    (shorter : ShortDocument document document') :
    Alike SameSchema (ofDocument document) (ofDocument document') := by
  -- The resources and the title stand under other keys, so only declarations are compared.
  obtain ⟨placed, replaced, shorter⟩ := shorter
  have title : facet? "title" document = facet? "title" document' := placed.agreeBut _ (by decide)
  have refl (entry : Scalar × Value) : SameDecl entry entry :=
    ⟨rfl, fun _ => .refl (fun _ _ _ => rfl) _⟩
  rw [ofDocument, ofDocument, readResources_replaced placed, title]
  have unchanged (entries : Entries) : List.Forall₂ SameDecl entries entries :=
    List.forall₂_same.mpr fun entry _ => refl entry
  refine .bind_same fun title _ => (alike_readSection placed unchanged
    (replaced.forall₂ refl ⟨rfl, shorter.readTypeDecl_alike⟩)).bind fun types types' each => ?_
  have decls : Alike
      (List.Forall₂ fun entry entry' => entry.1 = entry'.1 ∧ SameNode entry.2 entry'.2)
      (types.mapM fun (key, declaration) => do
        let name ← readKey key
        return (name, ← readTypeDecl name declaration))
      (types'.mapM fun (key, declaration) => do
        let name ← readKey key
        return (name, ← readTypeDecl name declaration)) := by
    refine .mapM_forall₂ (each.imp ?_)
    rintro ⟨key, value⟩ ⟨key', value'⟩ ⟨same, alike⟩
    obtain rfl : key = key' := same
    exact .bind_same fun name _ => (alike name).map fun _ _ node => ⟨rfl, node⟩
  refine decls.bind fun decls decls' each => .bind_same fun resources _ => .returned ?_
  exact ⟨rfl, Table.forall₂_ofList (fun _ _ same => same.1) each, rfl⟩

theorem ShortDocument.readGraph_eq {document document' : Entries}
    (shorter : ShortDocument document document') : readGraph document = readGraph document' := by
  have read := shorter.ofDocument_alike
  rw [readGraph, readGraph]
  generalize ofDocument document = x at read ⊢
  generalize ofDocument document' = y at read ⊢
  cases read with
  | failed => rfl
  | @returned schema schema' same =>
    -- The events count the types and the resources, and there are as many of them.
    have size : schema.types.size = schema'.types.size := same.types.length_eq
    have go (schema : Schema) (f : Schema → Logged TypeGraph) :
        (Logged.ofExcept (.ok schema) >>= f) = f schema := pure_bind schema f
    simp only [Except.mapError, go, size, same.resources, same.ofSchema_eq]

/-- Documents that differ in short and long forms only are read as the same graph, with the same
events on the way. -/
theorem readGraph_shortForms {document document' : Entries}
    (joined : Relation.EqvGen ShortDocument document document') :
    readGraph document = readGraph document' := by
  induction joined with
  | rel _ _ shorter => exact shorter.readGraph_eq
  | refl => rfl
  | symm _ _ _ ih => exact ih.symm
  | trans _ _ _ _ _ first second => exact first.trans second

/-- A basket of breads, with a lid that has a handle. -/
def bakeryDocument (bread breads handle : Value) : Entries :=
  [(.text "types", .map [
    (.text "Bread", bread),
    (.text "Basket", .map [(.text "properties", .map [
      (.text "breads?", breads),
      (.text "lid", .map [(.text "properties", .map [(.text "handle", handle)])])])])])]

theorem shortDocument_bread {bread bread' : Value} (shorter : ShortType bread bread')
    (breads handle : Value) :
    ShortDocument (bakeryDocument bread breads handle) (bakeryDocument bread' breads handle) :=
  .inside (.between [] []) (.between [] _) shorter

theorem shortDocument_breads {breads breads' : Value}
    (shorter : ShortProperty "breads?" breads breads') (bread handle : Value) :
    ShortDocument (bakeryDocument bread breads handle) (bakeryDocument bread breads' handle) :=
  .inside (.between [] []) (.between [_] [])
    (.inside (.between [] []) (.between [] _) shorter)

theorem shortDocument_handle {handle handle' : Value}
    (shorter : ShortProperty "handle" handle handle') (bread breads : Value) :
    ShortDocument (bakeryDocument bread breads handle) (bakeryDocument bread breads handle') :=
  .inside (.between [] []) (.between [_] [])
    (.inside (.between [] []) (.between [_] [])
      (.inside (.between [] []) (.between [] []) shorter))

/-- A list of breads that may be left out, as long as can be. -/
def optionalBreads : Value :=
  .map [(.text "required", .scalar (.bool false)),
    (.text "items", .map [(.text "type", .text "Bread")])]

theorem breads_joined (bread handle : Value) :
    Relation.EqvGen ShortDocument (bakeryDocument bread (.text "Bread[]") handle)
      (bakeryDocument bread optionalBreads handle) := by
  have typed : ShortProperty "breads?" (.text "Bread[]") (.map [(.text "type", .text "Bread[]")]) :=
    .text _
  have listed : ShortProperty "breads?" (.map [(.text "type", .text "Bread[]")])
      (.map [(.text "items", .map [(.text "type", .text "Bread")])]) := by
    have items : Schema.Declares (.map [(.text "type", .text "Bread")]) "Bread" := .facet rfl .text
    refine .facets (.array (by decide) (by decide) rfl .absent (.inl .absent) rfl items ?_)
    simp +contextual [AgreeBut, facet?_cons, eq_comm]
  have required : ShortProperty "breads?"
      (.map [(.text "items", .map [(.text "type", .text "Bread")])]) optionalBreads := by
    refine .required rfl rfl (iff_of_true rfl (by decide)) ?_
    simp +contextual [AgreeBut, facet?_cons, eq_comm]
  exact .trans _ _ _ (.rel _ _ (shortDocument_breads typed bread handle))
    (.trans _ _ _ (.rel _ _ (shortDocument_breads listed bread handle))
      (.rel _ _ (shortDocument_breads required bread handle)))

/-- Neither of the documents is the shorter one: in the first the bread and the list are short, and
in the second the handle is. -/
theorem readGraph_shortForms_bakery :
    Relation.EqvGen ShortDocument
      (bakeryDocument .null (.text "Bread[]") (.map [(.text "type", .text "string")]))
      (bakeryDocument (.map [(.text "type", .text "object")]) optionalBreads .null) ∧
    ∃ g, (readGraph (bakeryDocument .null (.text "Bread[]")
        (.map [(.text "type", .text "string")]))).outcome = .ok g ∧
      (readGraph (bakeryDocument (.map [(.text "type", .text "object")]) optionalBreads
        .null)).outcome = .ok g ∧
      g.allProperties.map (fun p => (p.name, p.required, p.type.raw)) =
        [("breads", false, "Bread[]"), ("lid", true, "object"), ("handle", true, "string")] := by
  have joined : Relation.EqvGen ShortDocument
      (bakeryDocument .null (.text "Bread[]") (.map [(.text "type", .text "string")]))
      (bakeryDocument (.map [(.text "type", .text "object")]) optionalBreads .null) :=
    .trans _ _ _ (.rel _ _ (shortDocument_bread .null _ _))
      (.trans _ _ _ (breads_joined _ _) (.symm _ _ (.rel _ _ (shortDocument_handle .null _ _))))
  obtain ⟨g, read, run⟩ : ∃ g, (readGraph (bakeryDocument .null (.text "Bread[]")
        (.map [(.text "type", .text "string")]))).outcome = .ok g ∧
      g.allProperties.map (fun p => (p.name, p.required, p.type.raw)) =
        [("breads", false, "Bread[]"), ("lid", true, "object"), ("handle", true, "string")] :=
    exists_of_toOption_map (by decide +kernel)
  exact ⟨joined, g, read, readGraph_shortForms joined ▸ read, run⟩

end TypeGraph

end RamlTypes
