import Mathlib.Data.List.Nodup
import RamlTypes.Proofs.EffectiveProperties

/-!
# What a model holds

A model has one class for each declared name that is not ignored, whatever order is asked for. The
class repeats the parent and the lineage of its type, and its fields are the results for those
effective properties that are not ignored and could be mapped.
-/
namespace RamlTypes

theorem mem_keptOf {α : Type} {results : List (Except FieldWarning α)} {a : α} :
    a ∈ keptOf results ↔ .ok a ∈ results := by
  rw [keptOf, List.mem_filterMap]
  constructor
  · rintro ⟨_ | kept, member, same⟩
    · cases same
    · cases same
      exact member
  · exact fun member => ⟨_, member, rfl⟩

/-- A failed mapping is turned into a warning; other faults stay. -/
theorem mappedOrDropped_outcome (owner propertyName : String) (x : Logged TargetType) :
    (x.mappedOrDropped owner propertyName).outcome =
      match x.outcome with
      | .ok target => .ok (.ok target)
      | .error (.mapping failure) =>
        .ok (.error ⟨failure.warningKind, owner, propertyName, failure.message⟩)
      | .error fault => .error fault := by
  unfold Logged.mappedOrDropped
  split <;> simp_all

theorem Resolver.outcome_fieldWith (r : Resolver) (owner : String) (p : Property)
    (target : TargetType) :
    (r.fieldWith owner p target).outcome =
      ((enumOf owner p.name p.literals p.type).outcome >>= fun enum =>
        r.hierarchy.isMember owner p >>= fun isMember =>
        (fun _ => ⟨r.fieldOf p target isMember, enum⟩) <$> target.checkReference) := by
  simp only [fieldWith, Logged.outcome_bind, Logged.outcome_ofExcept, ← bind_pure_comp]
  rfl

/-- A property whose target type is known has its enum and its place in the hierarchy, and what it
refers to can be looked up. -/
theorem Resolver.fieldWith_ok_iff {r : Resolver} {owner : String} {p : Property}
    {target : TargetType} {resolution : FieldResolution} :
    (r.fieldWith owner p target).outcome = .ok resolution ↔
      ∃ enum isMember, (enumOf owner p.name p.literals p.type).outcome = .ok enum ∧
        r.hierarchy.isMember owner p = .ok isMember ∧ target.checkReference = .ok () ∧
        resolution = ⟨r.fieldOf p target isMember, enum⟩ := by
  simp only [outcome_fieldWith, bind_ok_iff, map_ok_iff]
  constructor
  · rintro ⟨enum, built, isMember, placed, _, checked, rfl⟩
    exact ⟨enum, isMember, built, placed, checked, rfl⟩
  · rintro ⟨enum, isMember, built, placed, checked, rfl⟩
    exact ⟨enum, built, isMember, placed, (), checked, rfl⟩

/-- A property is kept exactly if it can be mapped, and its field is made for the target. -/
theorem Resolver.resolveField_ok_iff {r : Resolver} {owner : String} {p : Property}
    {resolution : FieldResolution} :
    (r.resolveField owner p).outcome = .ok (.ok resolution) ↔
      ∃ target, (r.mapper.mapProperty owner p).outcome = .ok target ∧
        (r.fieldWith owner p target).outcome = .ok resolution := by
  rw [resolveField, Logged.outcome_bind, mappedOrDropped_outcome]
  cases (r.mapper.mapProperty owner p).outcome with
  | ok target => simp [map_ok_iff]
  | error fault => cases fault <;> simp

/-- Resolving a type without what is reported on the way. -/
theorem Resolver.outcome_resolveNode (r : Resolver) (node : TypeNode) :
    (r.resolveNode node).outcome =
      (r.hierarchy.chain node.name >>= fun chain =>
        (enumOf node.name "" node.literals node.type).outcome >>= fun enum =>
        (r.resolveAlias node).outcome >>= fun definition =>
        r.visibleProperties chain >>= fun properties =>
        r.classWith node chain enum definition <$>
          properties.mapM fun p => (r.resolveField node.name p).outcome) := by
  simp only [Resolver.resolveNode, Logged.outcome_bind, Logged.outcome_mapM,
    Logged.outcome_ofExcept, ← bind_pure_comp]
  rfl

/-- A type that is resolved has a chain, an enum and a definition as far as it needs them, and a
result for each of its properties. -/
theorem Resolver.resolveNode_ok_iff {r : Resolver} {node : TypeNode}
    {resolution : ClassResolution} :
    (r.resolveNode node).outcome = .ok resolution ↔
      ∃ chain enum definition properties fields, r.hierarchy.chain node.name = .ok chain ∧
        (enumOf node.name "" node.literals node.type).outcome = .ok enum ∧
        (r.resolveAlias node).outcome = .ok definition ∧
        r.visibleProperties chain = .ok properties ∧
        properties.mapM (fun p => (r.resolveField node.name p).outcome) = .ok fields ∧
        resolution = r.classWith node chain enum definition fields := by
  simp only [outcome_resolveNode, bind_ok_iff, map_ok_iff]
  constructor
  · rintro ⟨chain, walked, enum, made, definition, aliased, properties, visible, fields, resolved,
      rfl⟩
    exact ⟨chain, enum, definition, properties, fields, walked, made, aliased, visible, resolved,
      rfl⟩
  · rintro ⟨chain, enum, definition, properties, fields, walked, made, aliased, visible, resolved,
      rfl⟩
    exact ⟨chain, walked, enum, made, definition, aliased, properties, visible, fields, resolved,
      rfl⟩

theorem Resolver.outcome_resolve (r : Resolver) (backend : String) :
    (r.resolve backend).outcome =
      (r.graph.names.mapM r.hierarchy.chain >>= fun _ =>
        r.options.orderClasses.mapError .misfit >>= fun order =>
        r.modelOf backend <$>
          (r.resolvedNames order).mapM fun name => (r.resolveClass name).outcome) := by
  simp only [Resolver.resolve, Logged.outcome_bind, Logged.outcome_mapM, Logged.outcome_ofExcept,
    Logged.outcome_emit, Logged.outcome_pure, ok_bind, ← bind_pure_comp]
  rfl

/-- A resolution that returns has walked every chain and resolved every type that is left in. -/
theorem Resolver.resolve_ok_iff {r : Resolver} {backend : String} {model : Model} :
    (r.resolve backend).outcome = .ok model ↔
      (∃ paths, r.graph.names.mapM r.hierarchy.chain = .ok paths) ∧
      ∃ order resolutions, r.options.orderClasses = .ok order ∧
        (r.resolvedNames order).mapM (fun name => (r.resolveClass name).outcome) =
          .ok resolutions ∧ model = r.modelOf backend resolutions := by
  simp only [outcome_resolve, bind_ok_iff, map_ok_iff, mapError_ok_iff]
  constructor
  · rintro ⟨paths, walked, order, given, resolutions, resolved, rfl⟩
    exact ⟨⟨paths, walked⟩, order, resolutions, given, resolved, rfl⟩
  · rintro ⟨⟨paths, walked⟩, order, resolutions, given, resolved, rfl⟩
    exact ⟨paths, walked, order, given, resolutions, resolved, rfl⟩

theorem Resolver.backend_of_resolve {r : Resolver} {backend : String} {model : Model}
    (returned : (r.resolve backend).outcome = .ok model) : model.backend = backend := by
  obtain ⟨_, _, _, _, _, rfl⟩ := resolve_ok_iff.mp returned
  rfl

/-- The field of the name is not left out. -/
def Options.Shows (options : Options) (key : String) : Prop :=
  ∃ ignores, options.ignoresField = .ok ignores ∧ ignores key = false

@[simp]
theorem Config.shows_options_iff {config : Config} {key : String} :
    config.options.Shows key ↔ key ∉ config.globalIgnoreFields := by
  simp [Options.Shows, Config.options]

namespace Model

/-- The class of a name in the model has the field. -/
def HasField (m : Model) (name : String) (field : ResolvedField) : Prop :=
  ∃ c, m.class? name = some c ∧ field ∈ c.fields

theorem class?_eq_some {m : Model} {name : String} {c : ResolvedClass}
    (found : m.class? name = some c) : c ∈ m.classes ∧ c.name = name :=
  ⟨List.mem_of_find?_eq_some found, by simpa using List.find?_some found⟩

/-- Where names are distinct, a class is found by its name. -/
theorem class?_of_mem {m : Model} {c : ResolvedClass} (nodup : (m.classes.map (·.name)).Nodup)
    (member : c ∈ m.classes) : m.class? c.name = some c := by
  cases found : m.class? c.name with
  | none => simpa using List.find?_eq_none.mp found c member
  | some c' =>
    obtain ⟨member', named⟩ := class?_eq_some found
    rw [List.inj_on_of_nodup_map nodup member' member named]

/-- The order of the classes does not matter for a lookup where names are distinct. -/
theorem class?_congr {m m' : Model} (nodup : (m.classes.map (·.name)).Nodup)
    (perm : m.classes.Perm m'.classes) : m.class? = m'.class? := by
  have nodup' : (m'.classes.map (·.name)).Nodup := (perm.map _).nodup nodup
  funext name
  apply Option.ext
  intro c
  constructor
  · intro found
    obtain ⟨member, rfl⟩ := class?_eq_some found
    exact class?_of_mem nodup' (perm.mem_iff.mp member)
  · intro found
    obtain ⟨member, rfl⟩ := class?_eq_some found
    exact class?_of_mem nodup (perm.mem_iff.mpr member)

end Model

namespace TypeGraph

variable {g : TypeGraph} {primitive? : String → Option String} {config : Config} {name : String}

/-! ### Names -/

theorem arrange_perm (order names : List String) : (Resolver.arrange order names).Perm names := by
  induction order generalizing names with
  | nil => exact .refl _
  | cons first rest ih =>
    simp only [Resolver.arrange]
    split
    next present => exact ((ih _).cons first).trans (List.perm_cons_erase present).symm
    · exact ih names

theorem mem_resolvedNames_iff {r : Resolver} {order : List String} :
    name ∈ r.resolvedNames order ↔ name ∈ r.graph.names ∧ name ∉ r.options.ignoreClasses := by
  rw [Resolver.resolvedNames, (arrange_perm _ _).mem_iff]
  simp

theorem mem_resolvedNames {order : List String} :
    name ∈ (Resolver.ofGraph primitive? config g).resolvedNames order ↔
      name ∈ g.names ∧ name ∉ config.ignoreClasses :=
  mem_resolvedNames_iff

theorem nodup_resolvedNames {r : Resolver} {order : List String} :
    (r.resolvedNames order).Nodup := by
  rw [Resolver.resolvedNames, (arrange_perm _ _).nodup_iff]
  exact r.graph.nodes.nodup.filter _

/-! ### Fields -/

/-- The properties that are resolved for a type are its effective ones that are not ignored. -/
theorem Lineage.mem_visibleProperties {r : Resolver} {path : List String}
    (line : r.graph.Lineage name path) {properties : List Property}
    (visible : r.visibleProperties path = .ok properties) (p : Property) :
    p ∈ properties ↔ ∃ key, r.options.Shows key ∧ r.graph.IsEffective name key p := by
  obtain ⟨table, flat, _⟩ := line.flatten_returns
  have effective (key : String) : r.graph.IsEffective name key p ↔ (key, p) ∈ table.entries := by
    simp [IsEffective, line.effectiveProperties_eq, flat, table.find?_eq_some_iff]
  simp only [effective]
  rw [Resolver.visibleProperties, flat, ok_bind] at visible
  split at visible
  next empty =>
    cases visible
    simp [List.isEmpty_iff.mp empty]
  next =>
    obtain ⟨ignores, asked, returned⟩ := (bind_ok_iff _ _ _).mp visible
    cases returned
    rw [mapError_ok_iff] at asked
    simp only [List.mem_map, List.mem_filter, Options.Shows, asked, Except.ok.injEq,
      exists_eq_left']
    constructor
    · rintro ⟨⟨key, p'⟩, ⟨member, shown⟩, rfl⟩
      exact ⟨key, by simpa using shown, member⟩
    · rintro ⟨key, shown, member⟩
      exact ⟨(key, p), ⟨member, by simpa using shown⟩, rfl⟩

/-- Fields that are ignored by their names are never in the way. -/
theorem visibleProperties_of_flatten {path : List String} {table : Table String Property}
    (flat : g.flatten path = .ok table) :
    (Resolver.ofGraph primitive? config g).visibleProperties path =
      .ok ((table.entries.filter (!config.globalIgnoreFields.contains ·.1)).map Prod.snd) := by
  change (g.flatten path >>= _) = _
  rw [flat, ok_bind]
  cases entries : table.entries <;> rfl

theorem Lineage.visibleProperties_returns (primitive? : String → Option String) (config : Config)
    {path : List String} (line : g.Lineage name path) :
    ∃ properties,
      (Resolver.ofGraph primitive? config g).visibleProperties path = .ok properties ∧
      ∀ p, p ∈ properties ↔
        ∃ key, key ∉ config.globalIgnoreFields ∧ g.IsEffective name key p := by
  obtain ⟨table, flat, _⟩ := line.flatten_returns
  have visible : (Resolver.ofGraph primitive? config g).visibleProperties path = _ :=
    visibleProperties_of_flatten flat
  refine ⟨_, visible, fun p => ?_⟩
  rw [Lineage.mem_visibleProperties (r := .ofGraph primitive? config g) line visible]
  exact exists_congr fun key => and_congr_left fun _ => Config.shows_options_iff

/-- The properties that are resolved for a type are declared somewhere in the graph. -/
theorem hasType_of_visibleProperties {r : Resolver} {chain : List String}
    {properties : List Property} (visible : r.visibleProperties chain = .ok properties)
    (walked : r.graph.chain name = .ok chain) : ∀ p ∈ properties, r.graph.HasType p.type := by
  intro p listed
  obtain ⟨_, _, present⟩ := ((chain_ok_iff.mp walked).mem_visibleProperties visible p).mp listed
  exact present.hasType

/-- A field that is kept has its type from the mapping and its place from the hierarchy. -/
theorem resolveField_kept {r : Resolver} {p : Property} {resolution : FieldResolution}
    (kept : (r.resolveField name p).outcome = .ok (.ok resolution)) :
    resolution.field.name = p.name ∧
      (r.mapper.mapProperty name p).outcome = .ok resolution.field.type ∧
      r.hierarchy.isMember name p = .ok resolution.field.isMember := by
  obtain ⟨target, mapped, filled⟩ := Resolver.resolveField_ok_iff.mp kept
  obtain ⟨enum, isMember, _, placed, _, rfl⟩ := Resolver.fieldWith_ok_iff.mp filled
  exact ⟨rfl, mapped, placed⟩

/-- A property is dropped only when it cannot be mapped. -/
theorem resolveField_mapped {r : Resolver} {p : Property} {target : TargetType}
    {result : Except FieldWarning FieldResolution}
    (mapped : (r.mapper.mapProperty name p).outcome = .ok target)
    (returned : (r.resolveField name p).outcome = .ok result) :
    ∃ resolution, result = .ok resolution := by
  rw [Resolver.resolveField, Logged.outcome_bind, mappedOrDropped_outcome, mapped, ok_bind,
    Logged.outcome_map, map_ok_iff] at returned
  obtain ⟨resolution, _, same⟩ := returned
  exact ⟨resolution, same.symm⟩

/-! ### Classes -/

/-- The class stands for the type of a name: its place in the hierarchy is that of the type, each
property that is not ignored was resolved for it, and the ones that were kept are its fields. -/
structure IsClassOf (r : Resolver) (name : String) (c : ResolvedClass) : Prop where
  named : c.name = name
  parented : c.parent = r.graph.parent? name
  descended : ∃ path, r.graph.Lineage name path ∧ c.ancestors = path.tail
  resolved : ∀ key p, r.options.Shows key → r.graph.IsEffective name key p →
    ∃ result, (r.resolveField name p).outcome = .ok result
  fields : ∀ f, f ∈ c.fields ↔ ∃ key p resolution, r.options.Shows key ∧
    r.graph.IsEffective name key p ∧ (r.resolveField name p).outcome = .ok (.ok resolution) ∧
    resolution.field = f

/-- A field comes from the effective property of its name. -/
theorem IsClassOf.property_of_field {c : ResolvedClass} {f : ResolvedField} (keyed : g.Keyed)
    (standing : IsClassOf (Resolver.ofGraph primitive? config g) name c) (member : f ∈ c.fields) :
    ∃ p, f.name ∉ config.globalIgnoreFields ∧ g.IsEffective name f.name p ∧
      ((Resolver.ofGraph primitive? config g).mapper.mapProperty name p).outcome = .ok f.type ∧
      g.hierarchy.isMember name p = .ok f.isMember := by
  obtain ⟨key, p, resolution, shown, effective, kept, rfl⟩ := (standing.fields f).mp member
  obtain ⟨named, mapped, placed⟩ := resolveField_kept kept
  have same : p.name = key := IsEffective.keyed effective keyed
  rw [named, same]
  exact ⟨p, Config.shows_options_iff.mp shown, effective, mapped, placed⟩

/-- A property that can be mapped has a field. -/
theorem IsClassOf.field_of_property {c : ResolvedClass} {key : String} {p : Property}
    {target : TargetType} (keyed : g.Keyed)
    (standing : IsClassOf (Resolver.ofGraph primitive? config g) name c)
    (shown : key ∉ config.globalIgnoreFields) (effective : g.IsEffective name key p)
    (mapped : ((Resolver.ofGraph primitive? config g).mapper.mapProperty name p).outcome =
      .ok target) :
    ∃ f ∈ c.fields, f.name = key ∧ f.type = target := by
  have shown := Config.shows_options_iff.mpr shown
  obtain ⟨result, returned⟩ := standing.resolved key p shown effective
  obtain ⟨resolution, rfl⟩ := resolveField_mapped mapped returned
  obtain ⟨named, mapped', _⟩ := resolveField_kept returned
  have listed := (standing.fields _).mpr ⟨key, p, resolution, shown, effective, returned, rfl⟩
  cases mapped.symm.trans mapped'
  exact ⟨resolution.field, listed, named.trans (effective.keyed keyed), rfl⟩

/-- A field is made for the property that it comes from. -/
theorem IsClassOf.field_eq {c : ResolvedClass} {f : ResolvedField} {p : Property}
    (keyed : g.Keyed) (standing : IsClassOf (Resolver.ofGraph primitive? config g) name c)
    (member : f ∈ c.fields) (effective : g.IsEffective name f.name p) :
    ∃ target isMember,
      ((Resolver.ofGraph primitive? config g).mapper.mapProperty name p).outcome = .ok target ∧
      g.hierarchy.isMember name p = .ok isMember ∧
      f = (Resolver.ofGraph primitive? config g).fieldOf p target isMember := by
  obtain ⟨key, p', resolution, _, effective', kept, rfl⟩ := (standing.fields f).mp member
  obtain ⟨target, mapped, filled⟩ := Resolver.resolveField_ok_iff.mp kept
  obtain ⟨_, isMember, _, placed, _, rfl⟩ := Resolver.fieldWith_ok_iff.mp filled
  -- The field has the name that its property is found under.
  have same : p'.name = key := IsEffective.keyed effective' keyed
  cases effective.unique (by rw [Resolver.fieldOf, same]; exact effective')
  exact ⟨target, isMember, mapped, placed, rfl⟩

theorem resolveClass_eq {node : TypeNode} (found : g.node? name = some node) :
    (Resolver.ofGraph primitive? config g).resolveClass name =
      (Resolver.ofGraph primitive? config g).resolveNode node := by
  have found : (Resolver.ofGraph primitive? config g).graph.node? name = some node := found
  rw [Resolver.resolveClass, found]

/-- Only a declared name is resolved, as its type. -/
theorem resolveNode_of_resolveClass {r : Resolver} {resolution : ClassResolution}
    (returned : (r.resolveClass name).outcome = .ok resolution) :
    ∃ node, r.graph.node? name = some node ∧ (r.resolveNode node).outcome = .ok resolution := by
  unfold Resolver.resolveClass at returned
  split at returned
  next => cases returned
  next node found => exact ⟨node, found, returned⟩

theorem resolveClass_isClassOf (keyed : g.Keyed) {resolution : ClassResolution}
    (returned : ((Resolver.ofGraph primitive? config g).resolveClass name).outcome =
      .ok resolution) :
    IsClassOf (Resolver.ofGraph primitive? config g) name resolution.record := by
  obtain ⟨node, found, made⟩ := resolveNode_of_resolveClass returned
  have named : node.name = name := keyed.of_node? found
  obtain ⟨path, enum, definition, properties, results, walked, _, _, visible, resolved, rfl⟩ :=
    Resolver.resolveNode_ok_iff.mp made
  subst named
  have line : g.Lineage node.name path := chain_ok_iff.mp walked
  -- The properties that were traversed are known by membership from here on.
  have member := Lineage.mem_visibleProperties (r := .ofGraph primitive? config g) line visible
  refine ⟨rfl, ?_, ⟨path, line, rfl⟩, ?_, ?_⟩
  · have found : g.node? node.name = some node := found
    change node.parent = (g.node? node.name).bind (·.parent)
    rw [found]
    rfl
  · intro key p shown effective
    obtain ⟨result, _, given⟩ := result_of_mem resolved ((member p).mpr ⟨key, shown, effective⟩)
    exact ⟨result, given⟩
  · intro f
    simp only [Resolver.classWith, List.mem_map, mem_keptOf]
    constructor
    · rintro ⟨resolution, kept, rfl⟩
      obtain ⟨p, listed, given⟩ := source_of_mem resolved kept
      obtain ⟨key, shown, effective⟩ := (member p).mp listed
      exact ⟨key, p, resolution, shown, effective, given, rfl⟩
    · rintro ⟨key, p, resolution, shown, effective, given, rfl⟩
      -- Resolving a property anew gives the result that stands in the class.
      obtain ⟨result, kept, given'⟩ :=
        result_of_mem resolved ((member p).mpr ⟨key, shown, effective⟩)
      cases given.symm.trans given'
      exact ⟨resolution, kept, rfl⟩

theorem resolveNode_named {r : Resolver} {node : TypeNode} {resolution : ClassResolution}
    (returned : (r.resolveNode node).outcome = .ok resolution) :
    resolution.record.name = node.name := by
  obtain ⟨_, _, _, _, _, _, _, _, _, _, rfl⟩ := Resolver.resolveNode_ok_iff.mp returned
  rfl

/-- A class has its children and its place in the dispatch from the hierarchy and the usage. -/
theorem resolveNode_placed {r : Resolver} {node : TypeNode} {resolution : ClassResolution}
    (returned : (r.resolveNode node).outcome = .ok resolution) :
    resolution.record.children = r.hierarchy.children node.name ∧
      resolution.record.isAbstract = r.dispatch.isAbstract node.name ∧
      resolution.record.deserializerTarget = r.dispatch.deserializerTarget node.name := by
  obtain ⟨_, _, _, _, _, _, _, _, _, _, rfl⟩ := Resolver.resolveNode_ok_iff.mp returned
  exact ⟨rfl, rfl, rfl⟩

/-- Whether a class has children is said besides its children. -/
theorem resolveNode_hasChildren {r : Resolver} {node : TypeNode} {resolution : ClassResolution}
    (returned : (r.resolveNode node).outcome = .ok resolution) :
    resolution.record.hasChildren = !resolution.record.children.isEmpty := by
  obtain ⟨_, _, _, _, _, _, _, _, _, _, rfl⟩ := Resolver.resolveNode_ok_iff.mp returned
  rfl

/-- Resolving names gives classes of these names. -/
theorem resolutions_named (keyed : g.Keyed) {names : List String}
    {resolutions : List ClassResolution}
    (resolved : names.mapM (fun name =>
      ((Resolver.ofGraph primitive? config g).resolveClass name).outcome) = .ok resolutions) :
    resolutions.map (·.record.name) = names := by
  have pointwise : List.Forall₂ Eq names (resolutions.map (·.record.name)) := by
    refine List.forall₂_map_right_iff.mpr (((mapM_ok_iff _ _ _).mp resolved).imp ?_)
    intro name resolution returned
    obtain ⟨node, found, made⟩ := resolveNode_of_resolveClass returned
    rw [resolveNode_named made, keyed.of_node? found]
  rw [List.forall₂_eq_eq_eq] at pointwise
  exact pointwise.symm

/-- The names in the wanted order can always be gone through. -/
theorem resolve_ok_iff {backend : String} {model : Model} :
    ((Resolver.ofGraph primitive? config g).resolve backend).outcome = .ok model ↔
      (∃ paths, g.names.mapM g.chain = .ok paths) ∧
      ∃ resolutions, ((Resolver.ofGraph primitive? config g).resolvedNames
          config.orderClasses).mapM (fun name =>
            ((Resolver.ofGraph primitive? config g).resolveClass name).outcome) = .ok resolutions ∧
        model = (Resolver.ofGraph primitive? config g).modelOf backend resolutions := by
  rw [Resolver.resolve_ok_iff]
  refine and_congr_right fun _ => ?_
  constructor
  · rintro ⟨_, resolutions, given, resolved, made⟩
    cases given
    exact ⟨resolutions, resolved, made⟩
  · rintro ⟨resolutions, resolved, made⟩
    exact ⟨_, resolutions, rfl, resolved, made⟩

/-- The classes of a model stand for the names that are resolved, one by one. -/
theorem resolve_classes (keyed : g.Keyed) {backend : String} {model : Model}
    (returned : ((Resolver.ofGraph primitive? config g).resolve backend).outcome = .ok model) :
    List.Forall₂ (IsClassOf (Resolver.ofGraph primitive? config g))
      ((Resolver.ofGraph primitive? config g).resolvedNames config.orderClasses)
      model.classes := by
  obtain ⟨_, resolutions, resolved, rfl⟩ := resolve_ok_iff.mp returned
  have pointwise := (mapM_ok_iff _ _ _).mp resolved
  refine List.forall₂_map_right_iff.mpr (pointwise.imp fun name resolution given => ?_)
  exact resolveClass_isClassOf keyed given

section Lookups

variable {backend : String} {model : Model} {c : ResolvedClass}

theorem resolve_names (keyed : g.Keyed)
    (returned : ((Resolver.ofGraph primitive? config g).resolve backend).outcome = .ok model) :
    model.classes.map (·.name) =
      (Resolver.ofGraph primitive? config g).resolvedNames config.orderClasses := by
  obtain ⟨_, resolutions, resolved, rfl⟩ := resolve_ok_iff.mp returned
  rw [← resolutions_named keyed resolved]
  simp [Resolver.modelOf]

theorem class?_of_mem_classes (sound : g.WellFormed)
    (returned : ((Resolver.ofGraph primitive? config g).resolve backend).outcome = .ok model)
    (member : c ∈ model.classes) : model.class? c.name = some c := by
  refine Model.class?_of_mem ?_ member
  rw [resolve_names sound.keyed returned]
  exact nodup_resolvedNames

/-- Each class of a model is what its type was resolved to. -/
theorem resolveNode_of_mem_classes (keyed : g.Keyed)
    (returned : ((Resolver.ofGraph primitive? config g).resolve backend).outcome = .ok model)
    (member : c ∈ model.classes) :
    ∃ node resolution, g.node? c.name = some node ∧ node.name = c.name ∧
      ((Resolver.ofGraph primitive? config g).resolveNode node).outcome = .ok resolution ∧
      resolution.record = c := by
  obtain ⟨_, resolutions, resolved, rfl⟩ := resolve_ok_iff.mp returned
  obtain ⟨resolution, listed, rfl⟩ := List.mem_map.mp member
  obtain ⟨name, _, given⟩ := source_of_mem resolved listed
  obtain ⟨node, found, made⟩ := resolveNode_of_resolveClass given
  have named : resolution.record.name = node.name := resolveNode_named made
  rw [named, keyed.of_node? found]
  exact ⟨node, resolution, found, keyed.of_node? found, made, rfl⟩

/-- Each class of a model stands for its name. -/
theorem isClassOf_of_mem_classes (keyed : g.Keyed)
    (returned : ((Resolver.ofGraph primitive? config g).resolve backend).outcome = .ok model)
    (member : c ∈ model.classes) : IsClassOf (Resolver.ofGraph primitive? config g) c.name c := by
  obtain ⟨name, _, standing⟩ := exists_of_mem_right (resolve_classes keyed returned) member
  exact standing.named.symm ▸ standing

/-- The class found under a name stands for it. -/
theorem isClassOf_of_class? (sound : g.WellFormed)
    (returned : ((Resolver.ofGraph primitive? config g).resolve backend).outcome = .ok model)
    (found : model.class? name = some c) :
    IsClassOf (Resolver.ofGraph primitive? config g) name c := by
  obtain ⟨member, rfl⟩ := Model.class?_eq_some found
  exact isClassOf_of_mem_classes sound.keyed returned member

/-- Every declared name that is not ignored has a class. -/
theorem exists_class (sound : g.WellFormed)
    (returned : ((Resolver.ofGraph primitive? config g).resolve backend).outcome = .ok model)
    (declared : g.isDeclared name = true) (kept : name ∉ config.ignoreClasses) :
    ∃ c, model.class? name = some c := by
  have listed :
      name ∈ (Resolver.ofGraph primitive? config g).resolvedNames config.orderClasses :=
    mem_resolvedNames.mpr ⟨(Table.contains_iff g.nodes name).mp declared, kept⟩
  obtain ⟨c, member, standing⟩ := exists_of_mem_left (resolve_classes sound.keyed returned) listed
  exact ⟨c, standing.named ▸ class?_of_mem_classes sound returned member⟩

/-- The model of a document is the one of its graph. -/
theorem resolve_of_resolveWith {profile : Profile} {options : Options} {document : Entries}
    (returned : (resolveWith profile options document).outcome = .ok model) :
    ∃ g, (readGraph document).outcome = .ok g ∧
      ((Resolver.withOptions profile.primitive? options g).resolve profile.language).outcome =
        .ok model := by
  simpa only [resolveWith, Logged.outcome_bind, Logged.outcome_emit, ok_bind, bind_ok_iff]
    using returned

theorem resolve_of_resolveDocument {profile : Profile} {requested : String} {document : Entries}
    (returned : (resolveDocument profile requested config document).outcome = .ok model) :
    ∃ g, (readGraph document).outcome = .ok g ∧
      ((Resolver.ofGraph profile.primitive? (effectiveConfig profile requested config) g).resolve
        profile.language).outcome = .ok model :=
  resolve_of_resolveWith returned

end Lookups

end TypeGraph

end RamlTypes
