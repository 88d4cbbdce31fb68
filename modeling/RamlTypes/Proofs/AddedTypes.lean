import RamlTypes.Proofs.GraphExtensions
import RamlTypes.Proofs.ModelHierarchy
import RamlTypes.Proofs.Views

/-!
# Types that are added to a document

A declaration behind the others adds a type to the graph of a document and leaves the others as
they are, unless one of them is declared as what is only now a declared type. So where nothing
mentions the new name, the model has the classes that it had, with the same enums and warnings. The
new type can be the child of another one, and only there it is seen: in the children, and in what
is abstract and read through a deserializer because of them.
-/
namespace RamlTypes

/-! ### Documents -/

namespace Entries

/-- The declarations of a document, as far as its section of types is a mapping. -/
def declarations (document : Entries) : Entries :=
  match facet? "types" document with
  | some (.map entries) => entries
  | _ => []

/-- The document with one more declaration behind the others. -/
def withType (document : Entries) (key : Scalar) (declaration : Value) : Entries :=
  insert (.text "types") (.map (document.declarations ++ [(key, declaration)])) document

theorem sameKey_text_iff {key : Scalar} {name : String} :
    key.sameKey (.text name) = true ↔ key = .text name := by
  cases key with
  | null | bool | int | text | timestamp | bytes => simp [Scalar.sameKey, Scalar.wholeNumber?]
  | float x => cases whole : x.toInt? <;> simp [Scalar.sameKey, Scalar.wholeNumber?, whole]

theorem facet?_insert (name : String) (value : Value) (entries : Entries) :
    facet? name (insert (.text name) value entries) = some value := by
  induction entries with
  | nil => simp [insert, facet?_cons]
  | cons entry rest ih =>
    obtain ⟨key, first⟩ := entry
    simp only [insert, sameKey_text_iff]
    by_cases same : key = .text name
    · simp [same, facet?_cons]
    · simp [same, facet?_cons, ih]

theorem declarations_of_readSection {document entries : Entries} {path : Path}
    (read : Schema.readSection path "types" (facet? "types" document) = .ok entries) :
    document.declarations = entries := by
  rw [declarations]
  rcases Schema.readSection_cases read with found | ⟨other, rfl⟩
  · rw [found]
  · split
    next inner found => exact absurd found (other inner)
    next => rfl

end Entries

/-- The types of a schema are what the declarations of its document are read as. -/
theorem Schema.types_of_ofDocument {document : Entries} {schema : Schema}
    (read : ofDocument document = .ok schema) :
    ∃ types, AreReadAs document.declarations types ∧ schema.types = .ofList types := by
  simp only [ofDocument, bind_ok_iff] at read
  obtain ⟨_, _, entries, sections, types, declared, resources, _, made⟩ := read
  cases made
  rw [Entries.declarations_of_readSection sections]
  exact ⟨types, mapM_readTypeDecl_ok_iff.mp declared, rfl⟩

/-- A declaration under a new name adds an entry to the types. -/
theorem Schema.types_withType {document : Entries} {schema schema' : Schema} {key : Scalar}
    {declaration : Value} (read : ofDocument document = .ok schema)
    (read' : ofDocument (document.withType key declaration) = .ok schema')
    (fresh : key.display ∉ schema.types.keys) :
    ∃ decl, schema'.types.entries = schema.types.entries ++ [(key.display, decl)] := by
  obtain ⟨types, declared, made⟩ := types_of_ofDocument read
  obtain ⟨types', declared', made'⟩ := types_of_ofDocument read'
  have entries : (document.withType key declaration).declarations =
      document.declarations ++ [(key, declaration)] := by
    rw [Entries.declarations, Entries.withType, Entries.facet?_insert]
  rw [entries] at declared'
  obtain ⟨before, ⟨name, decl⟩, rfl, read_before, named, _⟩ := forall₂_concat_left declared'
  obtain ⟨_, rfl⟩ := readKey_ok_iff.mp named
  -- The declarations in front are the same, and so is what they are read as.
  obtain rfl : before = types := AreReadAs.unique read_before declared
  rw [made] at fresh ⊢
  rw [made', Table.entries_ofList_append fresh]
  exact ⟨decl, rfl⟩

namespace TypeGraph

/-- A type is read the same where its type expression names the same parent. -/
theorem readNode_congr {schema schema' : Schema} {name : String} {decl : TypeDecl}
    {node : TypeNode} (read : readNode schema name decl = .ok node)
    (same : parentOf schema'.types.contains node.type = parentOf schema.types.contains node.type) :
    readNode schema' name decl = .ok node := by
  -- Which names are declared is asked for the parent only.
  simp only [readNode, bind_ok_iff] at read ⊢
  obtain ⟨properties, traversed, made⟩ := read
  refine ⟨properties, traversed, ?_⟩
  cases made
  simp only at same
  rw [same]
  rfl

theorem parentOf_congr {isDeclared isDeclared' : String → Bool} {type : TypeExpr}
    (same : isDeclared' type.raw = isDeclared type.raw) :
    parentOf isDeclared' type = parentOf isDeclared type := by
  cases type with
  | named raw name qualifier =>
    rw [TypeExpr.raw] at same
    rw [parentOf, parentOf, same]
  | array | map | union => rfl

variable {g g' : TypeGraph} {added : String}

/-- The graph of a schema with one more type has one more type, and all others are read as before.
-/
theorem growsBy_of_ofSchema {schema schema' : Schema} {decl : TypeDecl}
    (entries : schema'.types.entries = schema.types.entries ++ [(added, decl)])
    (built : ofSchema schema = .ok g) (built' : ofSchema schema' = .ok g')
    (unmentioned : ∀ type, g.HasType type → ¬ type.Mentions added) : g.GrowsBy added g' := by
  have read := entries_of_ofSchema built
  have read' := entries_of_ofSchema built'
  rw [entries] at read'
  obtain ⟨before, ⟨last, node⟩, split, read_before, named, _⟩ := forall₂_concat_left read'
  -- Only the new name is looked up with another answer, and no type names it as its parent.
  have known : ∀ name, name ≠ added → schema'.types.contains name = schema.types.contains name := by
    intro name other
    apply Bool.eq_iff_iff.mpr
    simp [Table.contains_iff, Table.keys, entries, other]
  have apart : ∀ entry ∈ g.nodes.entries, ¬ entry.2.type.Mentions added :=
    fun _ found => unmentioned _ (.node found)
  have read_again : List.Forall₂ (fun entry node => node.1 = entry.1 ∧
      readNode schema' entry.1 entry.2 = .ok node.2) schema.types.entries g.nodes.entries := by
    refine (((List.forall₂_and_left _ _).mpr ⟨apart, read.flip⟩).imp ?_).flip
    rintro ⟨name, node⟩ entry ⟨apart, same, found⟩
    have other : node.type.raw ≠ added := fun named => apart ⟨_, .self, .inl named⟩
    exact ⟨same, readNode_congr found (parentOf_congr (known _ other))⟩
  have same : before = g.nodes.entries := by
    refine List.right_unique_forall₂' ?_ read_before read_again
    rintro entry ⟨name, node⟩ ⟨name', node'⟩ ⟨rfl, here⟩ ⟨rfl, here'⟩
    cases here.symm.trans here'
    rfl
  have named : last = added := named
  exact ⟨⟨node, by rw [split, same, named]⟩, unmentioned⟩

/-- A document with one more declaration has a graph with one more type. -/
theorem growsBy_of_readGraph {document : Entries} {key : Scalar} {declaration : Value}
    (read : (readGraph document).outcome = .ok g)
    (read' : (readGraph (document.withType key declaration)).outcome = .ok g')
    (fresh : key.display ∉ g.names)
    (unmentioned : ∀ type, g.HasType type → ¬ type.Mentions key.display) :
    g.GrowsBy key.display g' := by
  obtain ⟨schema, declared, built⟩ := schema_of_readGraph read
  obtain ⟨schema', declared', built'⟩ := schema_of_readGraph read'
  rw [names_of_ofSchema built] at fresh
  obtain ⟨decl, entries⟩ := Schema.types_withType declared declared' fresh
  exact growsBy_of_ofSchema entries built built' unmentioned

end TypeGraph

/-! ### Models -/

/-- The second model has the classes of the first one, with their enums and warnings, and what
belongs to the new type besides. -/
structure Model.GrowsBy (m : Model) (added : String) (m' : Model) : Prop where
  classes : List.Forall₂ ResolvedClass.KeptAs m.classes (m'.classes.filter (·.name ≠ added))
  enums : m'.enums.filter (·.owner ≠ added) = m.enums
  warnings : m'.warnings.filter (·.typeName ≠ added) = m.warnings

namespace TypeGraph

variable {g g' : TypeGraph} {added : String} {primitive? : String → Option String}
  {config : Config}

/-- The new name is put somewhere, and the others are arranged as before. -/
theorem GrowsBy.resolvedNames_eq (grown : g.GrowsBy added g') :
    ((Resolver.ofGraph primitive? config g').resolvedNames config.orderClasses).filter
      (· ≠ added) = (Resolver.ofGraph primitive? config g).resolvedNames config.orderClasses := by
  have others : g.names.filter (· ≠ added) = g.names := by
    apply List.filter_eq_self.mpr
    rintro name listed
    simpa using fun same : name = added => grown.fresh (same ▸ listed)
  have names : g'.names.filter (· ≠ added) = g.names := by
    rw [grown.names_eq, List.filter_append, others]
    simp
  have nodup : (g'.names.filter (!config.ignoreClasses.contains ·)).Nodup :=
    g'.nodes.nodup.filter _
  change (Resolver.arrange config.orderClasses
      (g'.names.filter (!config.ignoreClasses.contains ·))).filter (· ≠ added) =
    Resolver.arrange config.orderClasses (g.names.filter (!config.ignoreClasses.contains ·))
  rw [arrange_filter nodup, List.filter_comm, names]

theorem resolve_grown (grown : g.GrowsBy added g') (sound : g.WellFormed) (keyed : g'.Keyed)
    (apart : config.universalBaseType ≠ added) {backend : String} {m m' : Model}
    (returned : ((Resolver.ofGraph primitive? config g).resolve backend).outcome = .ok m)
    (returned' : ((Resolver.ofGraph primitive? config g').resolve backend).outcome = .ok m') :
    m.GrowsBy added m' := by
  have acyclic := acyclic_of_resolve returned
  obtain ⟨_, resolutions, resolved, rfl⟩ := resolve_ok_iff.mp returned
  obtain ⟨_, resolutions', resolved', rfl⟩ := resolve_ok_iff.mp returned'
  have source : ∀ name resolution,
      ((Resolver.ofGraph primitive? config g').resolveClass name).outcome = .ok resolution →
        resolution.record.name = name ∧ resolution.IsLabelled := by
    intro name resolution given
    obtain ⟨node, found, made⟩ := resolveNode_of_resolveClass given
    exact ⟨(resolveNode_named made).trans (keyed.of_node? found),
      Resolver.resolveNode_isLabelled made⟩
  have labelled : ∀ resolution ∈ resolutions', resolution.IsLabelled := by
    intro resolution listed
    obtain ⟨name, _, given⟩ := source_of_mem resolved' listed
    exact (source name resolution given).2
  -- Of the new run, what is left is for the names of the old one.
  have others : (((Resolver.ofGraph primitive? config g').resolvedNames
      config.orderClasses).filter (· ≠ added)).mapM
      (fun name => ((Resolver.ofGraph primitive? config g').resolveClass name).outcome) =
        .ok (resolutions'.filter (·.record.name ≠ added)) :=
    mapM_filter resolved' fun name resolution given => by rw [(source name resolution given).1]
  rw [grown.resolvedNames_eq] at others
  have each : ∀ name ∈ (Resolver.ofGraph primitive? config g).resolvedNames
      config.orderClasses,
      Alike ClassResolution.KeptAs
        ((Resolver.ofGraph primitive? config g).resolveClass name).outcome
        ((Resolver.ofGraph primitive? config g').resolveClass name).outcome :=
    fun name listed => grown.resolveClass_kept sound acyclic apart
      ((Table.contains_iff _ _).mpr (mem_resolvedNames.mp listed).1)
  have kept := Alike.mapM each
  rw [resolved, others] at kept
  cases kept with
  | returned kept =>
    refine ⟨?_, ?_, ?_⟩
    · change List.Forall₂ _ (resolutions.map _) ((resolutions'.map _).filter _)
      rw [List.filter_map]
      exact List.forall₂_map_left_iff.mpr
        (List.forall₂_map_right_iff.mpr (kept.imp fun _ _ same => same.record))
    · refine (filter_flatMap_labelled (· ≠ added) fun resolution listed =>
        (labelled resolution listed).enums).trans ?_
      exact flatMap_eq_of_forall₂ (kept.imp fun _ _ same => same.enums)
    · refine (filter_flatMap_labelled (· ≠ added) fun resolution listed =>
        (labelled resolution listed).warnings).trans ?_
      exact flatMap_eq_of_forall₂ (kept.imp fun _ _ same => same.warnings)

/-- A type that nothing mentions can be added to a document without a change to the other classes,
but for their children and what depends on these. -/
theorem resolve_withType {document : Entries} {key : Scalar} {declaration : Value}
    (read : (readGraph document).outcome = .ok g)
    (read' : (readGraph (document.withType key declaration)).outcome = .ok g')
    (fresh : key.display ∉ g.names)
    (unmentioned : ∀ type, g.HasType type → ¬ type.Mentions key.display)
    (apart : config.universalBaseType ≠ key.display) {backend : String} {m m' : Model}
    (returned : ((Resolver.ofGraph primitive? config g).resolve backend).outcome = .ok m)
    (returned' : ((Resolver.ofGraph primitive? config g').resolve backend).outcome = .ok m') :
    m.GrowsBy key.display m' := by
  have grown := growsBy_of_readGraph read read' fresh unmentioned
  exact resolve_grown grown (isBuilt_of_readGraph read).wellFormed
    (isBuilt_of_readGraph read').wellFormed.keyed apart returned returned'

/-- A kennel keeps pets, and cats and dogs are pets. -/
def kennelDocument : Entries :=
  [(.text "types", .map [
    (.text "Pet", .map [(.text "properties", .map [(.text "name", .text "string")])]),
    (.text "Cat", .map [(.text "type", .text "Pet")]),
    (.text "Dog", .map [(.text "type", .text "Pet")]),
    (.text "Kennel", .map [(.text "properties", .map [(.text "guest", .text "Cat | Dog")])])])]

def kennelGraph : TypeGraph where
  title := ""
  nodes := ⟨[
    ("Pet", objectNode "Pet" none
      ⟨[("name", ⟨"name", .named "string" "string" "", true, [], none, ""⟩)], by simp⟩),
    ("Cat", objectNode "Cat" (some "Pet") .empty),
    ("Dog", objectNode "Dog" (some "Pet") .empty),
    ("Kennel", objectNode "Kennel" none
      ⟨[("guest", ⟨"guest", .union "Cat | Dog"
        [.named "Cat" "Cat" "", .named "Dog" "Dog" ""], true, [], none, ""⟩)], by simp⟩)], by simp⟩
  resources := []

theorem kennelGraph_unmentioned {type : TypeExpr} (present : kennelGraph.HasType type) :
    ¬ type.Mentions "Puppy" := by
  cases present with
  | node found =>
    simp only [kennelGraph, List.mem_cons, List.not_mem_nil, Prod.mk.injEq, or_false] at found
    rcases found with ⟨-, rfl⟩ | ⟨-, rfl⟩ | ⟨-, rfl⟩ | ⟨-, rfl⟩ <;>
      simp [objectNode, TypeExpr.mentions_iff (.named _ _ _), TypeExpr.raw, TypeExpr.memberName,
        TypeExpr.operands]
  | property found declared =>
    simp only [kennelGraph, List.mem_cons, List.not_mem_nil, Prod.mk.injEq, or_false] at found
    rcases found with ⟨-, rfl⟩ | ⟨-, rfl⟩ | ⟨-, rfl⟩ | ⟨-, rfl⟩ <;>
      simp [objectNode, Table.empty] at declared <;>
      obtain ⟨-, rfl⟩ := declared <;>
      simp [TypeExpr.mentions_iff (.named _ _ _), TypeExpr.mentions_iff (.union _ _),
        TypeExpr.raw, TypeExpr.memberName, TypeExpr.operands]

def puppy : Value := .map [(.text "type", .text "Dog")]

/-- With a puppy a dog has a child, and a kennel keeps the guests that it had. -/
theorem resolve_withType_puppy :
    ∃ g' m m', (readGraph kennelDocument).outcome = .ok kennelGraph ∧
      (readGraph (kennelDocument.withType (.text "Puppy") puppy)).outcome = .ok g' ∧
      "Puppy" ∉ kennelGraph.names ∧
      (∀ type, kennelGraph.HasType type → ¬ type.Mentions "Puppy") ∧
      ((Resolver.ofGraph Profile.java.primitive? {} kennelGraph).resolve "java").outcome = .ok m ∧
      ((Resolver.ofGraph Profile.java.primitive? {} g').resolve "java").outcome = .ok m' ∧
      m.classes.map (fun c => (c.name, c.children)) =
        [("Pet", ["Cat", "Dog"]), ("Cat", []), ("Dog", []), ("Kennel", [])] ∧
      m'.classes.map (fun c => (c.name, c.children)) =
        [("Pet", ["Cat", "Dog"]), ("Cat", []), ("Dog", ["Puppy"]), ("Kennel", []), ("Puppy", [])] ∧
      m.GrowsBy "Puppy" m' := by
  have read : (readGraph kennelDocument).outcome = .ok kennelGraph := by cbv
  have fresh : "Puppy" ∉ kennelGraph.names := by decide
  obtain ⟨m, returned, names⟩ : ∃ m,
      ((Resolver.ofGraph Profile.java.primitive? {} kennelGraph).resolve "java").outcome = .ok m ∧
      m.classes.map (fun c => (c.name, c.children)) =
        [("Pet", ["Cat", "Dog"]), ("Cat", []), ("Dog", []), ("Kennel", [])] :=
    exists_of_toOption_map (by decide +kernel)
  obtain ⟨m', run, names'⟩ : ∃ m',
      ((readGraph (kennelDocument.withType (.text "Puppy") puppy)).outcome >>= fun g' =>
        ((Resolver.ofGraph Profile.java.primitive? {} g').resolve "java").outcome) = .ok m' ∧
      m'.classes.map (fun c => (c.name, c.children)) =
        [("Pet", ["Cat", "Dog"]), ("Cat", []), ("Dog", ["Puppy"]), ("Kennel", []), ("Puppy", [])] :=
    exists_of_toOption_map (by decide +kernel)
  obtain ⟨g', read', returned'⟩ := (bind_ok_iff _ _ _).mp run
  exact ⟨g', m, m', read, read', fresh, fun _ => kennelGraph_unmentioned, returned, returned',
    names, names', resolve_withType read read' fresh (fun _ => kennelGraph_unmentioned)
      (by decide) returned returned'⟩

end TypeGraph

end RamlTypes
