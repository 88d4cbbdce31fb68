import RamlTypes.Proofs.MappedTypes
import RamlTypes.Proofs.MappingFailures
import RamlTypes.Proofs.ModelHierarchy
import RamlTypes.Proofs.Origins

/-!
# What is kept and what is dropped

For each type that is resolved, its definition is mapped if it is an alias, and so is each of its
effective properties that is not ignored. What can be mapped is in the class, and for everything
else there is one warning, in the order in which it was tried. So nothing gets lost on the way, and
nothing is there twice.
-/
namespace RamlTypes

/-- The warning that a mapping leaves behind if it fails. -/
def Logged.loss? (typeName fieldName : String) (x : Logged TargetType) : Option FieldWarning :=
  match x.outcome with
  | .error (.mapping failure) =>
      some ⟨failure.warningKind, typeName, fieldName, failure.message⟩
  | _ => none

/-- A mapping that is tried returns its target, or leaves its warning. -/
theorem mappedOrDropped_ok_iff {owner fieldName : String} {x : Logged TargetType}
    {result : Except FieldWarning TargetType} :
    (x.mappedOrDropped owner fieldName).outcome = .ok result ↔
      (∃ target, x.outcome = .ok target ∧ result = .ok target) ∨
      ∃ warning, x.loss? owner fieldName = some warning ∧ result = .error warning := by
  rw [mappedOrDropped_outcome, Logged.loss?]
  split <;> simp_all [eq_comm]

/-- The warning for a part that is in the way of a mapping. -/
def TypeExpr.warning (part : TypeExpr) (typeName fieldName : String) : FieldWarning :=
  ⟨part.warningKind, typeName, fieldName, part.failure.message⟩

/-- A mapping leaves the warning for what is in the way of the expression. -/
theorem TypeMapper.loss?_mapType {m : TypeMapper} (typed : m.TypesUnions) (type : TypeExpr)
    (typeName fieldName : String) :
    (m.mapType type).loss? typeName fieldName =
      (type.obstacle? m.primitive?).map (·.warning typeName fieldName) := by
  have ends := mapType_endsBy typed type
  cases found : type.obstacle? m.primitive? with
  | none =>
    rw [found] at ends
    obtain ⟨_, returned⟩ := ends
    simp [Logged.loss?, returned]
  | some part =>
    rw [found] at ends
    have failed : (m.mapType type).outcome = .error (.mapping part.failure) := ends
    simp [Logged.loss?, failed, TypeExpr.warning, TypeExpr.failure_warningKind found]

namespace Resolver

variable {r : Resolver} {owner : String}

/-- The properties that are not ignored, with their keys. -/
def shown (ignored : List String) (properties : Table String Property) :
    List (String × Property) :=
  properties.entries.filter fun entry => entry.1 ∉ ignored

/-- The warning for the definition of a type, if it is an alias that cannot be mapped. -/
def definitionLoss? (r : Resolver) (owner : String) (node : TypeNode) : Option FieldWarning :=
  if node.kind.isAlias then (r.mapper.mapType node.type).loss? owner "" else none

/-- The warning for a property under a key, if it cannot be mapped. -/
def propertyLoss? (r : Resolver) (owner : String) (entry : String × Property) :
    Option FieldWarning :=
  (r.mapper.mapProperty owner entry.2).loss? owner entry.1

/-- A class and its warnings account for all that is mapped for a type. The class has the definition
of an alias and a field for each property that is not ignored, as far as they can be mapped; for
the others there are the warnings, the one for the definition first. -/
structure AccountsFor (r : Resolver) (ignored : List String) (node : TypeNode)
    (properties : Table String Property) (c : ResolvedClass) (warnings : List FieldWarning) :
    Prop where
  definition : ∀ target, c.definition = some target ↔
    node.kind.isAlias = true ∧ (r.mapper.mapType node.type).outcome = .ok target
  fields : List.Forall₂
    (fun entry f => f.name = entry.1 ∧ (r.mapper.mapProperty c.name entry.2).outcome = .ok f.type)
    ((shown ignored properties).filter fun entry => (r.propertyLoss? c.name entry).isNone) c.fields
  distinct : (c.fields.map (·.name)).Nodup
  warnings : warnings = (r.definitionLoss? c.name node).toList ++
    (shown ignored properties).filterMap (r.propertyLoss? c.name)

theorem definitionLoss?_eq (typed : r.mapper.TypesUnions) (owner : String) (node : TypeNode) :
    r.definitionLoss? owner node =
      if node.kind.isAlias then (node.type.obstacle? r.primitive?).map (·.warning owner "")
      else none := by
  rw [definitionLoss?, TypeMapper.loss?_mapType typed]
  rfl

/-- A property with literals can always be mapped. -/
theorem propertyLoss?_eq (typed : r.mapper.TypesUnions) (owner : String)
    (entry : String × Property) :
    r.propertyLoss? owner entry =
      if entry.2.isEnum then none
      else (entry.2.type.obstacle? r.primitive?).map (·.warning owner entry.1) := by
  rw [propertyLoss?]
  cases enum : entry.2.isEnum with
  | true =>
    rw [TypeMapper.mapProperty_enum enum]
    rfl
  | false =>
    rw [TypeMapper.mapProperty_plain enum, TypeMapper.loss?_mapType typed]
    rfl

/-! ### Fields -/

/-- A property that is tried has a field of its name and target type, or leaves its warning. -/
theorem resolveField_cases {p : Property} {result : Except FieldWarning FieldResolution}
    (returned : (r.resolveField owner p).outcome = .ok result) :
    (∃ resolution, result = .ok resolution ∧
      (r.mapper.mapProperty owner p).loss? owner p.name = none ∧ resolution.field.name = p.name ∧
      (r.mapper.mapProperty owner p).outcome = .ok resolution.field.type) ∨
    ∃ warning, result = .error warning ∧
      (r.mapper.mapProperty owner p).loss? owner p.name = some warning := by
  cases result with
  | ok resolution =>
    obtain ⟨named, mapped, _⟩ := TypeGraph.resolveField_kept returned
    exact .inl ⟨resolution, rfl, by simp [Logged.loss?, mapped], named, mapped⟩
  | error warning =>
    rw [resolveField, Logged.outcome_bind, bind_ok_iff] at returned
    obtain ⟨tried, mapped, rest⟩ := returned
    rcases mappedOrDropped_ok_iff.mp mapped with ⟨target, _, rfl⟩ | ⟨warning', lost, rfl⟩
    · rw [Logged.outcome_map, map_ok_iff] at rest
      obtain ⟨_, _, wrong⟩ := rest
      cases wrong
    · cases rest
      exact .inr ⟨_, rfl, lost⟩

/-- Of the properties of a type, those that can be mapped have the fields, in their order, and the
others the warnings. -/
theorem resolveFields_account {entries : List (String × Property)}
    {results : List (Except FieldWarning FieldResolution)}
    (named : ∀ entry ∈ entries, entry.2.name = entry.1)
    (resolved : (entries.map Prod.snd).mapM (fun p => (r.resolveField owner p).outcome) =
      .ok results) :
    List.Forall₂
      (fun entry f => f.name = entry.1 ∧ (r.mapper.mapProperty owner entry.2).outcome = .ok f.type)
      (entries.filter fun entry => (r.propertyLoss? owner entry).isNone)
      ((keptOf results).map (·.field)) ∧
    droppedOf results = entries.filterMap (r.propertyLoss? owner) := by
  have pointwise := List.forall₂_map_left_iff.mp ((mapM_ok_iff _ _ _).mp resolved)
  clear resolved
  -- Each property adds to the fields or to the warnings, and never to both.
  induction pointwise with
  | nil => exact ⟨.nil, rfl⟩
  | @cons entry result entries results returned _ ih =>
    obtain ⟨fields, warnings⟩ := ih fun entry' member => named entry' (by simp [member])
    have key : entry.2.name = entry.1 := named entry (by simp)
    rcases resolveField_cases returned with
      ⟨resolution, rfl, kept, name, mapped⟩ | ⟨warning, rfl, lost⟩
    · have kept' : r.propertyLoss? owner entry = none := by rwa [propertyLoss?, ← key]
      constructor
      · rw [List.filter_cons_of_pos (by simp [kept'])]
        exact .cons ⟨name.trans key, mapped⟩ fields
      · rw [List.filterMap_cons_none kept', ← warnings]
        rfl
    · have lost' : r.propertyLoss? owner entry = some warning := by rwa [propertyLoss?, ← key]
      constructor
      · rw [List.filter_cons_of_neg (by simp [lost'])]
        exact fields
      · rw [List.filterMap_cons_some lost', ← warnings]
        rfl

/-! ### Definitions -/

/-- An alias that is tried has its target as its definition, or leaves its warning. -/
theorem resolveAlias_account {node : TypeNode}
    {definition : Option (Except FieldWarning TargetType)}
    (returned : (r.resolveAlias node).outcome = .ok definition) :
    (∀ target, (keptOf definition.toList).head? = some target ↔
      node.kind.isAlias = true ∧ (r.mapper.mapType node.type).outcome = .ok target) ∧
    droppedOf definition.toList = (r.definitionLoss? node.name node).toList := by
  unfold resolveAlias at returned
  unfold definitionLoss?
  split at returned
  next isAlias =>
    rw [Logged.outcome_map, map_ok_iff] at returned
    obtain ⟨result, tried, rfl⟩ := returned
    rcases mappedOrDropped_ok_iff.mp tried with ⟨target, mapped, rfl⟩ | ⟨warning, lost, rfl⟩
    · simp [isAlias, keptOf, droppedOf, mapped, Logged.loss?]
    · have failed : ∀ target, (r.mapper.mapType node.type).outcome ≠ .ok target := by
        intro target mapped
        simp [Logged.loss?, mapped] at lost
      simp [isAlias, keptOf, droppedOf, lost, failed]
  next plain =>
    cases returned
    simp [keptOf, droppedOf, plain]

end Resolver

namespace TypeGraph

variable {g : TypeGraph} {primitive? : String → Option String} {config : Config}

/-! ### Classes and models -/

theorem resolveNode_accounts (keyed : g.Keyed) {node : TypeNode} {resolution : ClassResolution}
    (returned : ((Resolver.ofGraph primitive? config g).resolveNode node).outcome =
      .ok resolution) :
    ∃ properties, g.hierarchy.effectiveProperties node.name = .ok properties ∧
      (Resolver.ofGraph primitive? config g).AccountsFor config.globalIgnoreFields node properties
        resolution.record resolution.warnings := by
  obtain ⟨path, enum, definition, _, results, walked, _, aliased, visible, resolved, rfl⟩ :=
    Resolver.resolveNode_ok_iff.mp returned
  have line : g.Lineage node.name path := chain_ok_iff.mp walked
  obtain ⟨properties, flat, _⟩ := line.flatten_returns
  have named := line.flatten_named keyed flat
  have same : properties.entries.filter (!config.globalIgnoreFields.contains ·.1) =
      Resolver.shown config.globalIgnoreFields properties :=
    List.filter_congr (by simp)
  rw [visibleProperties_of_flatten flat, same] at visible
  cases visible
  obtain ⟨fields, dropped⟩ := Resolver.resolveFields_account
    (fun entry member => named entry (List.mem_of_mem_filter member)) resolved
  obtain ⟨defined, undefined⟩ := Resolver.resolveAlias_account aliased
  -- The fields are named by keys of the table of properties, so no name is there twice.
  have names : ((keptOf results).map (·.field)).map (·.name) =
      ((Resolver.shown config.globalIgnoreFields properties).filter fun entry =>
        ((Resolver.ofGraph primitive? config g).propertyLoss? node.name entry).isNone).map
          Prod.fst := by
    have same := List.forall₂_map_left_iff.mpr (List.forall₂_map_right_iff.mpr
      (fields.imp fun _ _ both => both.1.symm))
    exact (List.forall₂_eq_eq_eq ▸ same).symm
  refine ⟨properties, line.effectiveProperties_eq.trans flat, defined, fields, ?_, ?_⟩
  · change (((keptOf results).map (·.field)).map (·.name)).Nodup
    rw [names]
    exact ((List.filter_sublist.trans List.filter_sublist).map Prod.fst).nodup properties.nodup
  · change droppedOf definition.toList ++ droppedOf results = _
    rw [undefined, dropped]
    rfl

/-- Nothing is dropped without a warning, and nothing is dropped or kept twice. What is dropped is
what has an obstacle in its expression, and the warning is for an unsupported construct exactly when
the obstacle is a map or an array of several dimensions. -/
theorem resolve_accounts (keyed : g.Keyed) {backend : String} {model : Model}
    (returned : ((Resolver.ofGraph primitive? config g).resolve backend).outcome = .ok model) :
    (∃ warnings : List (List FieldWarning), model.warnings = warnings.flatten ∧
      List.Forall₂ (fun c warnings => ∃ node properties, g.node? c.name = some node ∧
        g.hierarchy.effectiveProperties c.name = .ok properties ∧
        (Resolver.ofGraph primitive? config g).AccountsFor config.globalIgnoreFields node
          properties c warnings)
        model.classes warnings) ∧
    (∀ owner node, (Resolver.ofGraph primitive? config g).definitionLoss? owner node =
      if node.kind.isAlias then (node.type.obstacle? primitive?).map (·.warning owner "")
      else none) ∧
    ∀ owner entry, (Resolver.ofGraph primitive? config g).propertyLoss? owner entry =
      if entry.2.isEnum then none
      else (entry.2.type.obstacle? primitive?).map (·.warning owner entry.1) := by
  have typed : (Resolver.ofGraph primitive? config g).mapper.TypesUnions :=
    (acyclic_of_resolve returned).typesUnions primitive? config.universalBaseType
  refine ⟨?_, Resolver.definitionLoss?_eq typed, Resolver.propertyLoss?_eq typed⟩
  obtain ⟨_, resolutions, resolved, rfl⟩ := resolve_ok_iff.mp returned
  refine ⟨resolutions.map (·.warnings), by simp [Resolver.modelOf, List.flatMap_def], ?_⟩
  refine List.forall₂_map_left_iff.mpr (List.forall₂_map_right_iff.mpr (List.forall₂_same.mpr ?_))
  intro resolution listed
  obtain ⟨name, _, given⟩ := source_of_mem resolved listed
  obtain ⟨node, found, made⟩ := resolveNode_of_resolveClass given
  obtain ⟨properties, flat, accounts⟩ := resolveNode_accounts keyed made
  have named : resolution.record.name = node.name := resolveNode_named made
  rw [named]
  exact ⟨node, properties, keyed.of_node? found ▸ found, flat, accounts⟩

/-- Crates with properties that no target has, boxes that declare one of them anew, an index that is
a map and a tag that is a name of its own for a text. -/
def crateDocument : Entries :=
  [(.text "types", .map [
    (.text "Crate", .map [(.text "properties", .map [
      (.text "label", .text "string"),
      (.text "tags", .text "string | (Tag[][])"),
      (.text "sizes", .text "integer{}"),
      (.text "note", .text "Tag{}"),
      (.text "owner", .text "people.")])]),
    (.text "Box", .map [
      (.text "type", .text "Crate"),
      (.text "properties", .map [(.text "tags", .text "Tag[]")])]),
    (.text "Index", .text "Crate{}"),
    (.text "Tag", .text "string")])]

/-- The fields of each class by their names, and for each warning its kind and what it is about. -/
def outline (model : Model) :
    List (String × List String) × List (WarningKind × String × String) :=
  (model.classes.map fun c => (c.name, c.fields.map (·.name)),
    model.warnings.map fun warning => (warning.kind, warning.typeName, warning.fieldName))

/-- The tags of a box are a list, so they are lost on crates only; notes are not tried at all. -/
theorem resolve_accounts_crates :
    ∃ g model, (readGraph crateDocument).outcome = .ok g ∧ g.Keyed ∧
      ((Resolver.ofGraph Profile.java.primitive? { globalIgnoreFields := ["note"] } g).resolve
        "java").outcome = .ok model ∧
      outline model = (
        [("Crate", ["label"]), ("Box", ["label", "tags"]), ("Index", []), ("Tag", [])], [
          (.unsupportedConstruct, "Crate", "tags"), (.unsupportedConstruct, "Crate", "sizes"),
          (.fieldMapping, "Crate", "owner"), (.unsupportedConstruct, "Box", "sizes"),
          (.fieldMapping, "Box", "owner"), (.unsupportedConstruct, "Index", "")]) ∧
      ∃ warnings : List (List FieldWarning), model.warnings = warnings.flatten ∧
        List.Forall₂ (fun c warnings => ∃ node properties, g.node? c.name = some node ∧
          g.hierarchy.effectiveProperties c.name = .ok properties ∧
          (Resolver.ofGraph Profile.java.primitive? { globalIgnoreFields := ["note"] }
            g).AccountsFor ["note"] node properties c warnings)
          model.classes warnings := by
  -- The model itself is not evaluated, as the texts of its warnings are long.
  have run : (((readGraph crateDocument).outcome >>= fun g =>
      ((Resolver.ofGraph Profile.java.primitive? { globalIgnoreFields := ["note"] } g).resolve
        "java").outcome).map outline).toOption = some (
      [("Crate", ["label"]), ("Box", ["label", "tags"]), ("Index", []), ("Tag", [])], [
        (.unsupportedConstruct, "Crate", "tags"), (.unsupportedConstruct, "Crate", "sizes"),
        (.fieldMapping, "Crate", "owner"), (.unsupportedConstruct, "Box", "sizes"),
        (.fieldMapping, "Box", "owner"), (.unsupportedConstruct, "Index", "")]) := by
    decide +kernel
  cases read : (readGraph crateDocument).outcome with
  | error _ =>
    rw [read] at run
    cases run
  | ok g =>
    rw [read, ok_bind] at run
    cases returned : ((Resolver.ofGraph Profile.java.primitive?
        { globalIgnoreFields := ["note"] } g).resolve "java").outcome with
    | error _ =>
      rw [returned] at run
      cases run
    | ok model =>
      rw [returned] at run
      have keyed := (isBuilt_of_readGraph read).wellFormed.keyed
      exact ⟨g, model, rfl, keyed, returned, Option.some.inj run,
        (resolve_accounts keyed returned).1⟩

end TypeGraph

end RamlTypes
