import RamlTypes.Proofs.Expressions
import RamlTypes.Proofs.Outcomes
import RamlTypes.Proofs.Tables
import RamlTypes.Resolution

/-!
# Well-formed graphs

Building a graph stores every type and every property under its own name, links a type to a parent
that is declared, and reads all type expressions from texts. Later results about graphs start from
these facts and never from the declarations.
-/
namespace RamlTypes

/-- What building a graph makes sure of for a type and the name that it is stored under. -/
structure TypeNode.WellFormed (isDeclared : String → Bool) (name : String) (node : TypeNode) :
    Prop where
  named : node.name = name
  parented : node.parent = TypeGraph.parentOf isDeclared node.type
  kinded : node.kind = TypeGraph.kindOf node.literals.isSome node.parent.isSome node.type
  parsed : node.type.IsParsed
  propertyNamed : ∀ entry ∈ node.properties.entries, entry.2.name = entry.1
  propertyParsed : ∀ entry ∈ node.properties.entries, entry.2.type.IsParsed

namespace Schema

/-- A section is read as its entries, and what is no mapping counts as empty. -/
theorem readSection_cases {path : Path} {part : String} {facet : Option Value} {entries : Entries}
    (read : readSection path part facet = .ok entries) :
    facet = some (.map entries) ∨ (∀ inner, facet ≠ some (.map inner)) ∧ entries = [] := by
  rw [readSection.eq_def] at read
  split at read
  next => exact .inr ⟨by simp, (Except.ok.inj read).symm⟩
  next => exact .inl (by rw [Except.ok.inj read])
  next value other =>
    split at read
    next => exact .inr ⟨by simpa using other, (Except.ok.inj read).symm⟩
    next => cases read

theorem readKey_ok_iff {key : Scalar} {name : String} :
    readKey key = .ok name ↔ key.isPrintable = true ∧ name = key.display := by
  rw [readKey]
  cases key.isPrintable <;> simp [eq_comm]

/-- The declarations as they are read, with the texts of their keys. -/
def AreReadAs (types : Entries) (decls : List (String × TypeDecl)) : Prop :=
  List.Forall₂ (fun entry decl => readKey entry.1 = .ok decl.1 ∧
    readTypeDecl decl.1 entry.2 = .ok decl.2) types decls

theorem AreReadAs.keys {types : Entries} {decls : List (String × TypeDecl)}
    (read : AreReadAs types decls) : decls.map Prod.fst = types.map (·.1.display) :=
  map_eq_of_forall₂ (read.imp fun _ _ given => (readKey_ok_iff.mp given.1).2)

theorem AreReadAs.unique {types : Entries} {decls decls' : List (String × TypeDecl)}
    (read : AreReadAs types decls) (read' : AreReadAs types decls') : decls = decls' := by
  refine List.right_unique_forall₂' ?_ read read'
  rintro entry ⟨name, decl⟩ ⟨name', decl'⟩ ⟨named, here⟩ ⟨named', here'⟩
  cases named.symm.trans named'
  cases here.symm.trans here'
  rfl

theorem mapM_readTypeDecl_ok_iff {types : Entries} {decls : List (String × TypeDecl)} :
    (types.mapM fun (key, declaration) => do
      let name ← readKey key
      return (name, ← readTypeDecl name declaration)) = .ok decls ↔ AreReadAs types decls := by
  have one (entry : Scalar × Value) (decl : String × TypeDecl) :
      (∃ name, readKey entry.1 = .ok name ∧ ∃ read, readTypeDecl name entry.2 = .ok read ∧
        (name, read) = decl) ↔
        readKey entry.1 = .ok decl.1 ∧ readTypeDecl decl.1 entry.2 = .ok decl.2 := by
    constructor
    · rintro ⟨name, named, read, here, rfl⟩
      exact ⟨named, here⟩
    · rintro ⟨named, here⟩
      exact ⟨decl.1, named, decl.2, here, rfl⟩
  simp only [mapM_ok_iff, bind_ok_iff, pure, Except.pure, Except.ok.injEq, one, AreReadAs]

end Schema

namespace TypeGraph

open Schema

/-- A graph that some schema stands for. -/
def IsBuilt (g : TypeGraph) : Prop := ∃ schema, ofSchema schema = .ok g

/-- What building a graph makes sure of. -/
def WellFormed (g : TypeGraph) : Prop :=
  ∀ entry ∈ g.nodes.entries, entry.2.WellFormed g.isDeclared entry.1

/-- Every type and every property is stored under its own name. -/
structure Keyed (g : TypeGraph) : Prop where
  node : ∀ entry ∈ g.nodes.entries, entry.2.name = entry.1
  property : ∀ entry ∈ g.nodes.entries, ∀ inner ∈ entry.2.properties.entries,
    inner.2.name = inner.1

theorem WellFormed.keyed {g : TypeGraph} (sound : g.WellFormed) : g.Keyed :=
  ⟨fun entry member => (sound entry member).named,
    fun entry member => (sound entry member).propertyNamed⟩

/-- A type or a property of the graph is declared with the type expression. -/
inductive HasType (g : TypeGraph) : TypeExpr → Prop where
  | node {name : String} {node : TypeNode} (found : (name, node) ∈ g.nodes.entries) :
      HasType g node.type
  | property {name key : String} {node : TypeNode} {p : Property}
      (found : (name, node) ∈ g.nodes.entries) (declared : (key, p) ∈ node.properties.entries) :
      HasType g p.type

/-- Every type expression was read from some text. -/
def Parsed (g : TypeGraph) : Prop := ∀ type, g.HasType type → type.IsParsed

theorem WellFormed.parsed {g : TypeGraph} (sound : g.WellFormed) : g.Parsed := by
  intro type present
  cases present with
  | node found => exact (sound _ found).parsed
  | property found declared => exact (sound _ found).propertyParsed _ declared

/-- A document is read in two phases, which fail in the same ways. -/
theorem outcome_readGraph (document : Entries) :
    (readGraph document).outcome = (ofDocument document >>= ofSchema).mapError .ofRead := by
  simp only [readGraph, Logged.outcome_bind, Logged.outcome_ofExcept, Logged.outcome_emit,
    Logged.outcome_pure]
  cases ofDocument document with
  | error error => rfl
  | ok schema =>
    simp only [Except.mapError, ok_bind]
    cases ofSchema schema <;> rfl

/-- The graph of a document is the one of its schema. -/
theorem schema_of_readGraph {document : Entries} {g : TypeGraph}
    (read : (readGraph document).outcome = .ok g) :
    ∃ schema, ofDocument document = .ok schema ∧ ofSchema schema = .ok g := by
  rwa [outcome_readGraph, mapError_ok_iff, bind_ok_iff] at read

theorem isBuilt_of_readGraph {document : Entries} {g : TypeGraph}
    (read : (readGraph document).outcome = .ok g) : g.IsBuilt := by
  obtain ⟨schema, _, built⟩ := schema_of_readGraph read
  exact ⟨schema, built⟩

theorem isParsed_of_readProperty {path : Path} {key : String} {value : Value} {p : Property}
    (read : readProperty path key value = .ok p) : p.type.IsParsed := by
  match value with
  -- The short forms and the long form each end in reading one text.
  | .scalar .null | .scalar (.text _) =>
    simp only [readProperty] at read
    cases read
    exact ⟨_, rfl⟩
  | .map entries =>
    simp only [readProperty, bind_ok_iff] at read
    obtain ⟨_, _, _, _, _, _, _, _, _, _, _, _, _, _, returned⟩ := read
    cases returned
    exact ⟨_, rfl⟩
  | .scalar (.bool _) | .scalar (.int _) | .scalar (.float _) | .scalar (.timestamp _)
  | .scalar (.bytes _) | .list _ | .set _ | .pair _ _ =>
    simp [readProperty, reject] at read

theorem readNode_wellFormed {schema : Schema} {name : String} {decl : TypeDecl} {node : TypeNode}
    (read : readNode schema name decl = .ok node) :
    node.WellFormed schema.types.contains name := by
  simp only [readNode, bind_ok_iff] at read
  obtain ⟨properties, traversed, returned⟩ := read
  cases returned
  have read_property : ∀ p ∈ properties, p.type.IsParsed := by
    intro p member
    obtain ⟨_, _, found⟩ := source_of_mem traversed member
    exact isParsed_of_readProperty found
  refine ⟨rfl, rfl, rfl, ⟨_, rfl⟩, ?_, ?_⟩
  · apply Table.forall_mem_ofList
    simp
  · apply Table.forall_mem_ofList
    simpa using read_property

theorem keys_of_readNodes {schema : Schema} {declarations : List (String × TypeDecl)}
    {nodes : List (String × TypeNode)}
    (read : List.Forall₂ (fun entry node => node.1 = entry.1 ∧
      readNode schema entry.1 entry.2 = .ok node.2) declarations nodes) :
    nodes.map Prod.fst = declarations.map Prod.fst :=
  map_eq_of_forall₂ (read.imp fun _ _ given => given.1)

/-- A graph holds the types of its schema in their order, each as it was read. -/
theorem entries_of_ofSchema {schema : Schema} {g : TypeGraph} (built : ofSchema schema = .ok g) :
    List.Forall₂ (fun entry node => node.1 = entry.1 ∧
      readNode schema entry.1 entry.2 = .ok node.2) schema.types.entries g.nodes.entries := by
  simp only [ofSchema, bind_ok_iff] at built
  obtain ⟨nodes, traversed, returned⟩ := built
  cases returned
  have read : List.Forall₂ (fun entry node => node.1 = entry.1 ∧
      readNode schema entry.1 entry.2 = .ok node.2) schema.types.entries nodes := by
    refine ((mapM_ok_iff _ _ _).mp traversed).imp ?_
    rintro ⟨name, decl⟩ node made
    obtain ⟨read, found, returned⟩ := (bind_ok_iff _ _ _).mp made
    cases returned
    exact ⟨rfl, found⟩
  -- The names of a schema are distinct, so no type overwrites another.
  have nodup : (nodes.map Prod.fst).Nodup := by
    rw [keys_of_readNodes read]
    exact schema.types.nodup
  simpa only [Table.entries_ofList nodup] using read

theorem names_of_ofSchema {schema : Schema} {g : TypeGraph} (built : ofSchema schema = .ok g) :
    g.names = schema.types.keys :=
  keys_of_readNodes (entries_of_ofSchema built)

theorem isDeclared_of_ofSchema {schema : Schema} {g : TypeGraph}
    (built : ofSchema schema = .ok g) : g.isDeclared = schema.types.contains :=
  Table.contains_congr (names_of_ofSchema built)

theorem IsBuilt.wellFormed {g : TypeGraph} (built : g.IsBuilt) : g.WellFormed := by
  obtain ⟨schema, made⟩ := built
  intro entry member
  rw [isDeclared_of_ofSchema made]
  have related := entries_of_ofSchema made
  obtain ⟨declared, _, same, read⟩ := exists_of_mem_right related member
  exact same ▸ readNode_wellFormed read

variable {g : TypeGraph} {name : String} {node : TypeNode}

theorem node?_eq_some_iff : g.node? name = some node ↔ (name, node) ∈ g.nodes.entries :=
  g.nodes.find?_eq_some_iff name node

theorem Keyed.of_node? (keyed : g.Keyed) (found : g.node? name = some node) : node.name = name :=
  keyed.node _ (node?_eq_some_iff.mp found)

theorem WellFormed.of_node? (sound : g.WellFormed) (found : g.node? name = some node) :
    node.WellFormed g.isDeclared name :=
  sound _ (node?_eq_some_iff.mp found)

theorem parentOf_eq_some {isDeclared : String → Bool} {type : TypeExpr} {parent : String}
    (named : parentOf isDeclared type = some parent) :
    isDeclared parent = true ∧ type.raw = parent := by
  cases type with
  | named raw name qualifier =>
    simp only [parentOf] at named
    split at named
    next declared =>
      cases named
      exact ⟨declared, rfl⟩
    · cases named
  | array | map | union => cases named

/-- A type that has a parent is declared, and so is the parent. -/
theorem WellFormed.parent_declared (sound : g.WellFormed) {parent : String}
    (up : g.parent? name = some parent) : g.isDeclared parent = true := by
  obtain ⟨node, found, linked⟩ := Option.bind_eq_some_iff.mp up
  -- Only a declared name becomes a parent.
  rw [(sound.of_node? found).parented] at linked
  exact (parentOf_eq_some linked).1

end TypeGraph

end RamlTypes
