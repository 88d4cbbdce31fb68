import RamlTypes.Proofs.AddedTypes
import RamlTypes.Proofs.EffectiveProperties
import RamlTypes.Proofs.InheritanceCircles
import RamlTypes.Proofs.ParentReferences

/-!
# Built graphs

The graph of a document has one type for each text among the keys of the declarations, and its types
can be looked up without a check: they and their properties stand under their own names, and every
parent is declared. The kind of a type says what it is defined by. An enum is defined by its
literals and an object by its properties or its parent; any other type is an alias of its type
expression, has the kind of that expression, and has no parent.
-/
namespace RamlTypes

/-- An expression that is an alias defines a type of the kind. -/
inductive TypeExpr.Defines : TypeExpr → TypeKind → Prop where
  | array {raw : String} {dimensions : Nat} {element : TypeExpr} :
      Defines (.array raw dimensions element) .array
  | union {raw : String} {members : List TypeExpr} : Defines (.union raw members) .union
  | map {raw : String} {value : TypeExpr} : Defines (.map raw value) .map
  | scalar {raw name qualifier : String} (keyword : raw ∈ TypeGraph.scalarKeywords) :
      Defines (.named raw name qualifier) .scalar
  | reference {raw name qualifier : String} (other : raw ∉ TypeGraph.scalarKeywords) :
      Defines (.named raw name qualifier) .reference

/-- What can be relied on for a type that stands under a key of a graph. -/
structure TypeNode.IsSound (g : TypeGraph) (key : String) (node : TypeNode) : Prop where
  named : node.name = key
  properties : ∀ entry ∈ node.properties.entries, entry.2.name = entry.1
  parent : ∀ parent, node.parent = some parent ↔
    g.isDeclared parent = true ∧ ∃ name qualifier, node.type = .named parent name qualifier
  enum : node.kind = .enum ↔ node.literals.isSome = true
  object : node.literals = none →
    (node.kind = .object ↔ node.parent.isSome = true ∨ node.type.raw = "object")
  defined : node.literals = none → node.kind ≠ .object → node.type.Defines node.kind
  orphan : node.kind.isAlias = true → node.parent = none

/-- The keys of a table are those that were written, each where it was first written. -/
theorem Table.keys_ofList {κ α : Type} [DecidableEq κ] (entries : List (κ × α)) :
    (ofList entries).keys = (entries.map Prod.fst).eraseDups := by
  -- The last entry is written last, so a key keeps the place of its first entry.
  induction entries using List.reverseRecOn with
  | nil => rfl
  | append_singleton entries last ih =>
    have split : ofList (entries ++ [last]) = (ofList entries).insert last.1 last.2 := by
      rw [ofList, insertAll, List.foldl_append]
      rfl
    rw [split, keys_insert, List.map_append, List.eraseDups_append, ih, List.map_singleton]
    by_cases old : last.1 ∈ entries.map Prod.fst <;> simp [List.removeAll, List.eraseDups_cons, old]

namespace TypeGraph

variable {g : TypeGraph} {document : Entries}

/-! ### Names -/

theorem names_of_readGraph (read : (readGraph document).outcome = .ok g) :
    g.names = (document.declarations.map (·.1.display)).eraseDups := by
  obtain ⟨schema, declared, built⟩ := schema_of_readGraph read
  obtain ⟨types, reads, made⟩ := Schema.types_of_ofDocument declared
  rw [names_of_ofSchema built, made, Table.keys_ofList, reads.keys]

/-! ### Kinds -/

/-- The text of the keyword is read as nothing else. -/
theorem eq_object_of_raw {type : TypeExpr} (parsed : type.IsParsed) (object : type.raw = "object") :
    type = .named "object" "object" "" :=
  parsed.eq_of_raw_eq ⟨"object", by cbv⟩ object

theorem parentOf_eq_some_iff {isDeclared : String → Bool} {type : TypeExpr} {parent : String} :
    parentOf isDeclared type = some parent ↔
      isDeclared parent = true ∧ ∃ name qualifier, type = .named parent name qualifier := by
  constructor
  · exact fun linked => ⟨(parentOf_eq_some linked).1, eq_named_of_parentOf linked⟩
  · rintro ⟨declared, name, qualifier, rfl⟩
    exact if_pos declared

theorem kindOf_eq_enum_iff {isEnum hasParent : Bool} {type : TypeExpr} :
    kindOf isEnum hasParent type = .enum ↔ isEnum = true := by
  cases isEnum with
  | true => simp [kindOf]
  | false =>
    simp only [kindOf, Bool.false_eq_true, if_false, iff_false]
    split
    · simp
    · split
      all_goals try split_ifs
      all_goals simp

/-- What is neither an enum nor an object is defined by its expression. -/
theorem defines_kindOf {hasParent : Bool} {type : TypeExpr}
    (other : kindOf false hasParent type ≠ .object) :
    type.Defines (kindOf false hasParent type) := by
  cases hasParent with
  | true => exact absurd rfl other
  | false =>
    cases type with
    | array => exact .array
    | union => exact .union
    | map => exact .map
    | named raw name qualifier =>
      simp only [kindOf, Bool.false_eq_true, if_false] at other ⊢
      split_ifs at other ⊢ with object keyword
      · exact absurd rfl other
      · exact .scalar keyword
      · exact .reference keyword

theorem kindOf_eq_object_iff {hasParent : Bool} {type : TypeExpr} (parsed : type.IsParsed) :
    kindOf false hasParent type = .object ↔ hasParent = true ∨ type.raw = "object" := by
  constructor
  · intro object
    cases hasParent with
    | true => exact .inl rfl
    | false =>
      cases type with
      | array | union | map => cases object
      | named raw name qualifier =>
        refine .inr ?_
        simp only [kindOf, Bool.false_eq_true, if_false] at object
        split_ifs at object with same
        exact same
  · rintro (rfl | object)
    · rfl
    · -- Only a name can have this text, since the text is read again as the expression.
      rw [eq_object_of_raw parsed object]
      cases hasParent <;> rfl

theorem isAlias_kindOf_true (isEnum : Bool) (type : TypeExpr) :
    (kindOf isEnum true type).isAlias = false := by
  cases isEnum <;> rfl

end TypeGraph

theorem TypeNode.WellFormed.isSound {g : TypeGraph} {key : String} {node : TypeNode}
    (sound : node.WellFormed g.isDeclared key) : node.IsSound g key where
  named := sound.named
  properties := sound.propertyNamed
  parent := by
    intro parent
    rw [sound.parented]
    exact TypeGraph.parentOf_eq_some_iff
  enum := by
    rw [sound.kinded]
    exact TypeGraph.kindOf_eq_enum_iff
  object := by
    intro plain
    rw [sound.kinded, plain]
    exact TypeGraph.kindOf_eq_object_iff sound.parsed
  defined := by
    intro plain other
    rw [sound.kinded, plain] at other ⊢
    exact TypeGraph.defines_kindOf other
  orphan := by
    intro isAlias
    rw [← Option.not_isSome_iff_eq_none]
    intro parented
    -- A type with a parent is an object, or an enum before that.
    rw [sound.kinded, parented, TypeGraph.isAlias_kindOf_true] at isAlias
    cases isAlias

namespace TypeGraph

variable {g : TypeGraph} {document : Entries}

/-- Up the parents of a declared name there are declared names only. -/
theorem Linked.all_declared {path : List String} (linked : g.Linked path) (sound : g.WellFormed)
    (starts : ∀ first, path.head? = some first → g.isDeclared first = true) :
    ∀ owner ∈ path, g.isDeclared owner = true := by
  induction path with
  | nil => simp
  | cons first above ih =>
    obtain ⟨up, linked'⟩ := List.isChain_cons.mp linked
    refine List.forall_mem_cons.mpr ⟨starts first rfl, ih linked' fun next second => ?_⟩
    exact sound.parent_declared (up next second)

/-- The graph of a document has one type for each text of a key, all of them are sound, and the
properties along any chain can be flattened. -/
theorem readGraph_sound (read : (readGraph document).outcome = .ok g) :
    g.names = (document.declarations.map (·.1.display)).eraseDups ∧
      (∀ key node, g.node? key = some node → node.IsSound g key) ∧
      (∀ path, g.Linked path → (∀ first, path.head? = some first → g.isDeclared first = true) →
        ∃ properties, g.flatten path = .ok properties) ∧
      ∀ name path, g.hierarchy.chain name = .ok path →
        ∃ properties, g.flatten path = .ok properties := by
  have sound := (isBuilt_of_readGraph read).wellFormed
  refine ⟨names_of_readGraph read, fun key node found => (sound.of_node? found).isSound, ?_, ?_⟩
  · intro path linked starts
    have declared : ∀ owner ∈ path.reverse, g.isDeclared owner = true :=
      fun owner member => linked.all_declared sound starts owner (List.mem_reverse.mp member)
    obtain ⟨properties, flat, _⟩ := writeProperties_returns .empty declared
    exact ⟨properties, flat⟩
  · intro name path walked
    obtain ⟨properties, flat, _⟩ := (chain_ok_iff.mp walked).flatten_returns
    exact ⟨properties, flat⟩

/-- Types of every kind. The first number is overwritten by the last declaration. -/
def menagerieDocument : Entries :=
  [(.text "types", .map [
    (.int 1, .text "Vet"),
    (.text "Pet", .null),
    (.text "Cat", .map [(.text "type", .text "Pet"), (.text "properties", .map [
      (.text "name?", .text "string")])]),
    (.text "Mood", .map [(.text "type", .text "Pet"), (.text "enum", .list [.text "calm"])]),
    (.text "Pets", .text "Pet[]"),
    (.text "Guest", .text "Cat | Dog"),
    (.text "Names", .text "string\x7b\x7d"),
    (.text "Age", .text "integer"),
    (.text "Owner", .text "lib.Person"),
    (.text "1", .text "Cat")])]

/-- An enum may have a parent, and what overwrites a type takes its place. -/
theorem readGraph_sound_menagerie :
    ∃ g, (readGraph menagerieDocument).outcome = .ok g ∧
      (g.nodes.entries.map fun entry => (entry.1, entry.2.kind, entry.2.parent)) =
        [("1", .object, some "Cat"), ("Pet", .object, none), ("Cat", .object, some "Pet"),
          ("Mood", .enum, some "Pet"), ("Pets", .array, none), ("Guest", .union, none),
          ("Names", .map, none), ("Age", .scalar, none), ("Owner", .reference, none)] ∧
      (∀ key node, g.node? key = some node → node.IsSound g key) ∧
      ∃ properties, g.flatten ["1", "Cat", "Pet"] = .ok properties := by
  obtain ⟨g, read, run⟩ : ∃ g, (readGraph menagerieDocument).outcome = .ok g ∧
      (g.nodes.entries.map (fun entry => (entry.1, entry.2.kind, entry.2.parent)),
        ["1", "Cat"].map g.parent?, g.isDeclared "1") =
        ([("1", .object, some "Cat"), ("Pet", .object, none), ("Cat", .object, some "Pet"),
          ("Mood", .enum, some "Pet"), ("Pets", .array, none), ("Guest", .union, none),
          ("Names", .map, none), ("Age", .scalar, none), ("Owner", .reference, none)],
          [some "Cat", some "Pet"], true) :=
    exists_of_toOption_map (by decide +kernel)
  obtain ⟨kinds, run⟩ := Prod.ext_iff.mp run
  obtain ⟨parents, declared⟩ := Prod.ext_iff.mp run
  obtain ⟨_, sound, flattens, _⟩ := readGraph_sound read
  refine ⟨g, read, kinds, sound, flattens _ ?_ ?_⟩
  · simpa [Linked] using parents
  · simpa using declared

end TypeGraph

end RamlTypes
