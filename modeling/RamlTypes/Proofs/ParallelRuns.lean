import RamlTypes.Proofs.MappedTypes
import RamlTypes.Proofs.ModelContents

/-!
# Two runs over one graph

Two resolvers for the same graph can differ in what types are mapped to. A mapping is looked at
when it fails, which leaves a warning, and otherwise only put into a field or a definition. So
where all mappings fail alike or give related targets, the two runs do the same: they end with the
same fault, or with models that differ in the targets and in what is computed from them.
-/
namespace RamlTypes

variable {related : TargetType → TargetType → Prop}

/-! ### Results -/

/-- Mappings that fail alike are dropped with the same warning. -/
theorem Alike.mappedOrDropped {x y : Logged TargetType} (ends : Alike related x.outcome y.outcome)
    (owner propertyName : String) :
    Alike (Alike related) (x.mappedOrDropped owner propertyName).outcome
      (y.mappedOrDropped owner propertyName).outcome := by
  rw [mappedOrDropped_outcome, mappedOrDropped_outcome]
  generalize x.outcome = left, y.outcome = right at ends
  cases ends with
  | failed fault =>
    -- A failed mapping becomes a warning, and any other fault ends both runs.
    cases fault with
    | mapping failure => exact .returned (.failed _)
    | _ => exact .failed _
  | returned same => exact .returned (.returned same)

section Results

variable {α β : Type} {alike : α → β → Prop} {xs : List (Except FieldWarning α)}
  {ys : List (Except FieldWarning β)}

theorem forall₂_keptOf (ends : List.Forall₂ (Alike alike) xs ys) :
    List.Forall₂ alike (keptOf xs) (keptOf ys) := by
  induction ends with
  | nil => exact .nil
  | cons here _ ih =>
    cases here with
    | failed warning => exact ih
    | returned same => exact .cons same ih

theorem droppedOf_eq (ends : List.Forall₂ (Alike alike) xs ys) : droppedOf ys = droppedOf xs := by
  induction ends with
  | nil => rfl
  | cons here _ ih =>
    cases here with
    | failed warning => exact congrArg (warning :: ·) ih
    | returned same => exact ih

end Results

namespace Resolver

/-- The resolvers are for the same graph and leave out the same, and map types alike. -/
structure Parallel (related : TargetType → TargetType → Prop) (r r' : Resolver) : Prop where
  hierarchy : r'.hierarchy = r.hierarchy
  ignoreClasses : r'.options.ignoreClasses = r.options.ignoreClasses
  ignoresField : r'.options.ignoresField = r.options.ignoresField
  orderClasses : r'.options.orderClasses = r.options.orderClasses
  usage : r'.usage = r.usage
  enumRef : ∀ name, related (.enumRef name) (.enumRef name)
  checkReference : ∀ target target', related target target' →
    target'.checkReference = target.checkReference
  mapType : ∀ type, r.graph.HasType type →
    Alike related (r.mapper.mapType type).outcome (r'.mapper.mapType type).outcome

/-- The fields are made for one property and one place, with related targets. -/
inductive FieldsAlike (related : TargetType → TargetType → Prop) (r r' : Resolver) :
    ResolvedField → ResolvedField → Prop where
  | made (p : Property) (isMember : Bool) {target target' : TargetType}
      (mapped : related target target') :
      FieldsAlike related r r' (r.fieldOf p target isMember) (r'.fieldOf p target' isMember)

/-- The classes differ in the types of their fields and their definitions, and in what references
are read through. -/
structure ClassesAlike (related : TargetType → TargetType → Prop) (r r' : Resolver)
    (c c' : ResolvedClass) : Prop where
  same : c' = { c with
    fields := c'.fields
    definition := c'.definition
    deserializerTarget := c'.deserializerTarget }
  fields : List.Forall₂ (FieldsAlike related r r') c.fields c'.fields
  definition : Option.Rel related c.definition c'.definition
  deserializerTarget : c.deserializerTarget = r.dispatch.deserializerTarget c.name ∧
    c'.deserializerTarget = r'.dispatch.deserializerTarget c.name

/-- The models differ in their classes, and in the deserializers that these have. -/
structure ModelsAlike (related : TargetType → TargetType → Prop) (r r' : Resolver)
    (m m' : Model) : Prop where
  title : m'.title = m.title
  enums : m'.enums = m.enums
  warnings : m'.warnings = m.warnings
  parents : m'.parents = m.parents
  classes : List.Forall₂ (ClassesAlike related r r') m.classes m'.classes
  deserializers : m.deserializers = m.classes.filterMap r.deserializer? ∧
    m'.deserializers = m'.classes.filterMap r'.deserializer?

section ModelsAlike

variable {r r' : Resolver} {m m' : Model}

theorem ModelsAlike.same (alike : ModelsAlike related r r' m m') :
    m' = { m with
      backend := m'.backend
      classes := m'.classes
      deserializers := m'.deserializers } := by
  cases m'
  cases alike.title
  cases alike.enums
  cases alike.warnings
  cases alike.parents
  rfl

/-- A deserializer has the name and the children of its class, which are the same. -/
theorem ModelsAlike.deserializers_eq (alike : ModelsAlike related r r' m m')
    (needed : r'.dispatch.needsDeserializer = r.dispatch.needsDeserializer) :
    m'.deserializers = m.deserializers := by
  obtain ⟨given, given'⟩ := alike.deserializers
  rw [given, given']
  refine filterMap_eq_of_forall₂ (alike.classes.imp fun c c' classes => ?_)
  rw [classes.same, deserializer?, deserializer?, needed]

theorem ClassesAlike.deserializerTarget_eq {c c' : ResolvedClass}
    (alike : ClassesAlike related r r' c c')
    (targets : r'.dispatch.deserializerTarget = r.dispatch.deserializerTarget) :
    c'.deserializerTarget = c.deserializerTarget := by
  rw [alike.deserializerTarget.1, alike.deserializerTarget.2, targets]

end ModelsAlike

namespace Parallel

variable {r r' : Resolver}

theorem graph (parallel : Parallel related r r') : r'.graph = r.graph :=
  congrArg Hierarchy.graph parallel.hierarchy

theorem mapProperty (parallel : Parallel related r r') (owner : String) {p : Property}
    (present : r.graph.HasType p.type) :
    Alike related (r.mapper.mapProperty owner p).outcome
      (r'.mapper.mapProperty owner p).outcome := by
  cases enum : p.isEnum with
  | false =>
    rw [TypeMapper.mapProperty_plain enum, TypeMapper.mapProperty_plain enum]
    exact parallel.mapType p.type present
  | true =>
    rw [TypeMapper.mapProperty_enum enum, TypeMapper.mapProperty_enum enum]
    exact .returned (parallel.enumRef _)

/-- One property gives the same warning, or related fields with the same enum. -/
theorem resolveField (parallel : Parallel related r r') (owner : String) {p : Property}
    (present : r.graph.HasType p.type) :
    Alike (Alike fun a b => FieldsAlike related r r' a.field b.field ∧ b.enum = a.enum)
      (r.resolveField owner p).outcome (r'.resolveField owner p).outcome := by
  rw [Resolver.resolveField, Resolver.resolveField, Logged.outcome_bind, Logged.outcome_bind]
  refine ((parallel.mapProperty owner present).mappedOrDropped owner p.name).bind ?_
  intro result result' ends
  cases ends with
  | failed warning => exact .returned (.failed warning)
  | @returned target target' mapped =>
    rw [Logged.outcome_map, Logged.outcome_map, outcome_fieldWith, outcome_fieldWith,
      parallel.hierarchy]
    -- The enum and the place are the same computations on both sides.
    refine Alike.map ?_ fun _ _ => .returned
    refine Alike.bind_same fun enum _ => Alike.bind_same fun isMember _ => ?_
    rw [parallel.checkReference target target' mapped]
    exact Alike.map_same fun _ => ⟨.made p isMember mapped, rfl⟩

theorem resolveAlias (parallel : Parallel related r r') {node : TypeNode}
    (present : r.graph.HasType node.type) :
    Alike (fun a b => List.Forall₂ (Alike related) a.toList b.toList)
      (r.resolveAlias node).outcome (r'.resolveAlias node).outcome := by
  unfold Resolver.resolveAlias
  split
  · rw [Logged.outcome_map, Logged.outcome_map]
    refine ((parallel.mapType _ present).mappedOrDropped node.name "").map ?_
    exact fun _ _ ends => .cons ends .nil
  · exact .returned .nil

theorem visibleProperties (parallel : Parallel related r r') :
    r'.visibleProperties = r.visibleProperties := by
  funext chain
  rw [Resolver.visibleProperties, Resolver.visibleProperties, parallel.graph,
    parallel.ignoresField]

theorem isAbstract (parallel : Parallel related r r') :
    r'.dispatch.isAbstract = r.dispatch.isAbstract := by
  funext name
  simp only [Dispatch.isAbstract, Dispatch.isUsed, dispatch, parallel.hierarchy, parallel.usage]

theorem resolvedNames (parallel : Parallel related r r') : r'.resolvedNames = r.resolvedNames := by
  funext order
  rw [Resolver.resolvedNames, Resolver.resolvedNames, parallel.graph, parallel.ignoreClasses]

end Parallel

/-- The results for one type differ in the class only. -/
structure ResolutionsAlike (related : TargetType → TargetType → Prop) (r r' : Resolver)
    (c c' : ClassResolution) : Prop where
  record : ClassesAlike related r r' c.record c'.record
  enums : c'.enums = c.enums
  warnings : c'.warnings = c.warnings

variable {r r' : Resolver}

/-- Related results for the parts of a type make related classes of it. -/
theorem Parallel.classWith (parallel : Parallel related r r') (node : TypeNode)
    (chain : List String) (enum : Option EnumDef)
    {definition definition' : Option (Except FieldWarning TargetType)}
    {fields fields' : List (Except FieldWarning FieldResolution)}
    (aliased : List.Forall₂ (Alike related) definition.toList definition'.toList)
    (resolved : List.Forall₂ (Alike fun a b => FieldsAlike related r r' a.field b.field ∧
      b.enum = a.enum) fields fields') :
    ResolutionsAlike related r r' (r.classWith node chain enum definition fields)
      (r'.classWith node chain enum definition' fields') := by
  -- What failed is dropped on both sides, so the fields that are left still go together.
  have kept := forall₂_keptOf resolved
  refine ⟨⟨?_, ?_, rel_head? (forall₂_keptOf aliased), rfl, rfl⟩, ?_, ?_⟩
  · simp only [Resolver.classWith, parallel.hierarchy, parallel.isAbstract]
  · exact List.forall₂_map_left_iff.mpr
      (List.forall₂_map_right_iff.mpr (kept.imp fun _ _ same => same.1))
  · exact congrArg (enum.toList ++ ·) (filterMap_eq_of_forall₂ (kept.imp fun _ _ same => same.2))
  · simp only [Resolver.classWith, droppedOf_eq aliased, droppedOf_eq resolved]

section Run

variable {g : TypeGraph} {primitive? primitive?' : String → Option String}
  {options options' : Options}
  (parallel :
    Parallel related (withOptions primitive? options g) (withOptions primitive?' options' g))

include parallel

theorem Parallel.resolveClass (name : String) :
    Alike (ResolutionsAlike related (withOptions primitive? options g)
        (withOptions primitive?' options' g))
      ((withOptions primitive? options g).resolveClass name).outcome
      ((withOptions primitive?' options' g).resolveClass name).outcome := by
  rw [Resolver.resolveClass, Resolver.resolveClass, parallel.graph]
  cases found : (withOptions primitive? options g).graph.node? name with
  | none => exact .failed _
  | some node =>
    rw [outcome_resolveNode, outcome_resolveNode, parallel.hierarchy]
    refine Alike.bind_same fun chain walked => Alike.bind_same fun enum _ => ?_
    refine (parallel.resolveAlias (.node (TypeGraph.node?_eq_some_iff.mp found))).bind ?_
    intro definition definition' aliased
    rw [parallel.visibleProperties]
    refine Alike.bind_same fun properties visible => ?_
    -- All types that are left to map are declared in the graph.
    have present := TypeGraph.hasType_of_visibleProperties visible walked
    refine (Alike.mapM fun p listed => parallel.resolveField node.name (present p listed)).map ?_
    exact fun fields fields' resolved => parallel.classWith node chain enum aliased resolved

/-- Two runs that map types alike end alike. -/
theorem Parallel.resolve (backend backend' : String) :
    Alike (ModelsAlike related (withOptions primitive? options g)
        (withOptions primitive?' options' g))
      ((withOptions primitive? options g).resolve backend).outcome
      ((withOptions primitive?' options' g).resolve backend').outcome := by
  rw [outcome_resolve, outcome_resolve, parallel.resolvedNames, parallel.orderClasses]
  refine Alike.bind_same fun _ _ => Alike.bind_same fun order _ => ?_
  refine (Alike.mapM fun name _ => parallel.resolveClass name).map ?_
  intro resolutions resolutions' alike
  refine ⟨rfl, ?_, ?_, rfl, ?_, rfl, rfl⟩
  · exact flatMap_eq_of_forall₂ (alike.imp fun _ _ same => same.enums)
  · exact flatMap_eq_of_forall₂ (alike.imp fun _ _ same => same.warnings)
  · exact List.forall₂_map_left_iff.mpr
      (List.forall₂_map_right_iff.mpr (alike.imp fun _ _ same => same.record))

end Run

end Resolver

end RamlTypes
