import RamlTypes.Dispatch
import RamlTypes.Mapping
import RamlTypes.Model
import RamlTypes.Options
import RamlTypes.Profile
import RamlTypes.Schema.OfDocument
import RamlTypes.TypeGraph.OfSchema

/-!
# Resolution

Resolving a type graph gives a model. Every chain is walked first, so a cycle anywhere ends the
resolution. Then each type is resolved for itself: a field whose type cannot be mapped is dropped
with a warning, and a literal that no enum can have ends the resolution.
-/

namespace RamlTypes

/-- Everything that the resolution of a type depends on. -/
structure Resolver where
  hierarchy : Hierarchy
  usage : Usage
  primitive? : String → Option String
  options : Options

namespace Resolver

def withOptions (primitive? : String → Option String) (options : Options) (graph : TypeGraph) :
    Resolver :=
  ⟨graph.hierarchy, graph.usage, primitive?, options⟩

def ofGraph (primitive? : String → Option String) (config : Config) (graph : TypeGraph) :
    Resolver :=
  withOptions primitive? config.options graph

def graph (r : Resolver) : TypeGraph := r.hierarchy.graph

def mapper (r : Resolver) : TypeMapper := ⟨r.primitive?, r.hierarchy, r.options.universalBaseType⟩

def dispatch (r : Resolver) : Dispatch := ⟨r.hierarchy, r.usage, r.options.annotations⟩

end Resolver

def MappingFailure.warningKind : MappingFailure → WarningKind
  | unsupported _ _ => .unsupportedConstruct
  | unnamed _ => .fieldMapping

/-- Turns a failure to map into a warning that is logged; other faults stay. -/
def Logged.mappedOrDropped (typeName fieldName : String) (x : Logged TargetType) :
    Logged (Except FieldWarning TargetType) :=
  match x.outcome with
  | .ok target => ⟨x.log, .ok (.ok target)⟩
  | .error (.mapping failure) =>
      let warning := ⟨failure.warningKind, typeName, fieldName, failure.message⟩
      ⟨x.log ++ [.dropped warning], .ok (.error warning)⟩
  | .error fault => ⟨x.log, .error fault⟩

/-- A field and its enum, if it has one. -/
structure FieldResolution where
  field : ResolvedField
  enum : Option EnumDef

/-- A class with the enums and warnings of the class itself and its fields. -/
structure ClassResolution where
  record : ResolvedClass
  enums : List EnumDef
  warnings : List FieldWarning

/-- The warnings among some results, in order. -/
def droppedOf {α : Type} (results : List (Except FieldWarning α)) : List FieldWarning :=
  results.filterMap fun
    | .error warning => some warning
    | .ok _ => none

def keptOf {α : Type} (results : List (Except FieldWarning α)) : List α :=
  results.filterMap fun
    | .error _ => none
    | .ok a => some a

namespace Resolver

/-- The member names of a property whose declared and target types are both unions. -/
def unionMembers (property : Property) (target : TargetType) : Option (List String) :=
  match target, property.type with
  | .unionOf _ _, .union _ members => some (members.map (·.memberName))
  | _, _ => none

/-- The enum of a type or property, if it has literals. -/
def enumOf (owner propertyName : String) (literals : Option (List Value)) (type : TypeExpr) :
    Logged (Option EnumDef) :=
  match literals with
  | none => pure none
  | some literals => some <$> EnumDef.ofLiterals owner propertyName literals type.raw

/-- The field of a property with the given target and place in the hierarchy. -/
def fieldOf (r : Resolver) (property : Property) (target : TargetType) (isMember : Bool) :
    ResolvedField where
  name := property.name
  type := target
  required := property.required
  isMember
  requiredOverrides :=
    r.graph.requiredOverrides r.options.overrideRule property target.referenced?
  unionMembers := unionMembers property target
  description := property.description

/-- The field of a property that is mapped to the given target, and its enum. -/
def fieldWith (r : Resolver) (owner : String) (property : Property) (target : TargetType) :
    Logged FieldResolution := do
  let enum ← enumOf owner property.name property.literals property.type
  let isMember ← Logged.ofExcept (r.hierarchy.isMember owner property)
  Logged.ofExcept target.checkReference
  return ⟨r.fieldOf property target isMember, enum⟩

def resolveField (r : Resolver) (owner : String) (property : Property) :
    Logged (Except FieldWarning FieldResolution) := do
  match ← (r.mapper.mapProperty owner property).mappedOrDropped owner property.name with
  | .error warning => return .error warning
  | .ok target => .ok <$> r.fieldWith owner property target

/-- The definition of a type that is an alias; nothing for other types. -/
def resolveAlias (r : Resolver) (node : TypeNode) :
    Logged (Option (Except FieldWarning TargetType)) :=
  if node.kind.isAlias then
    some <$> (r.mapper.mapType node.type).mappedOrDropped node.name ""
  else pure none

/-- The effective properties of a type that are not ignored. Whether fields are ignored is asked
only where there are some. -/
def visibleProperties (r : Resolver) (chain : List String) : Except Fault (List Property) := do
  let properties ← r.graph.flatten chain
  if properties.entries.isEmpty then return []
  let ignores ← r.options.ignoresField.mapError .misfit
  return (properties.entries.filter (!ignores ·.1)).map Prod.snd

/-- The class of a type with the given results for its parts. -/
def classWith (r : Resolver) (node : TypeNode) (chain : List String) (enum : Option EnumDef)
    (definition : Option (Except FieldWarning TargetType))
    (fields : List (Except FieldWarning FieldResolution)) : ClassResolution :=
  let children := r.hierarchy.children node.name
  { record := {
      name := node.name
      kind := node.kind
      parent := node.parent
      ancestors := chain.tail
      fields := (keptOf fields).map (·.field)
      children
      isAbstract := r.dispatch.isAbstract node.name
      hasChildren := !children.isEmpty
      hasRequiredProperties := node.properties.values.any (·.required)
      deserializerTarget := r.dispatch.deserializerTarget node.name
      enum
      definition := (keptOf definition.toList).head?
      description := Text.trimmedLines node.description }
    enums := enum.toList ++ (keptOf fields).filterMap (·.enum)
    warnings := droppedOf definition.toList ++ droppedOf fields }

def resolveNode (r : Resolver) (node : TypeNode) : Logged ClassResolution := do
  let chain ← Logged.ofExcept (r.hierarchy.chain node.name)
  let enum ← enumOf node.name "" node.literals node.type
  let definition ← r.resolveAlias node
  let properties ← Logged.ofExcept (r.visibleProperties chain)
  let fields ← properties.mapM (r.resolveField node.name)
  return r.classWith node chain enum definition fields

def resolveClass (r : Resolver) (name : String) : Logged ClassResolution :=
  match r.graph.node? name with
  | none => .ofExcept (.error (.undeclared name))
  | some node => r.resolveNode node

/-- Names in the wanted order: first those of `order`, then the others as they stand. -/
def arrange : List String → List String → List String
  | [], names => names
  | name :: order, names =>
      if name ∈ names then name :: arrange order (names.erase name) else arrange order names

/-- The names of the types that a model holds, in its order. -/
def resolvedNames (r : Resolver) (order : List String) : List String :=
  arrange order (r.graph.names.filter fun name => !r.options.ignoreClasses.contains name)

/-- The deserializer of a class, if it needs one. -/
def deserializer? (r : Resolver) (c : ResolvedClass) : Option Deserializer :=
  if r.dispatch.needsDeserializer c.name then
    some ⟨Dispatch.deserializerName c.name, c.name, c.children, Dispatch.discriminant⟩
  else none

/-- The model with the given results for its classes. -/
def modelOf (r : Resolver) (backend : String) (resolutions : List ClassResolution) : Model :=
  let classes := resolutions.map (·.record)
  { title := r.graph.title
    backend, classes
    enums := resolutions.flatMap (·.enums)
    deserializers := classes.filterMap r.deserializer?
    warnings := resolutions.flatMap (·.warnings)
    parents := r.graph.nodes.map fun _ node => node.parent }

def resolve (r : Resolver) (backend : String) : Logged Model := do
  let _ ← r.graph.names.mapM fun name => Logged.ofExcept (r.hierarchy.chain name)
  let order ← Logged.ofExcept (r.options.orderClasses.mapError .misfit)
  let resolutions ← (r.resolvedNames order).mapM r.resolveClass
  let model := r.modelOf backend resolutions
  .emit (.resolved model.classes.length model.enums.length model.deserializers.length
    model.warnings.length)
  return model

end Resolver

/-- The type graph of a document. -/
def readGraph (document : Entries) : Logged TypeGraph := do
  let schema ← Logged.ofExcept ((Schema.ofDocument document).mapError .ofRead)
  .emit (.schemaRead schema.types.size schema.resources.length)
  let graph ← Logged.ofExcept ((TypeGraph.ofSchema schema).mapError .ofRead)
  .emit (.graphBuilt graph.nodes.size)
  return graph

/-- The configuration that a run for a language works with. A requested annotation style replaces
the configured one. -/
def effectiveConfig (profile : Profile) (requested : String) (config : Config) : Config :=
  profile.configure requested
    (if requested = "" then config else { config with annotations := requested })

/-- Resolves a document for a target language with the given options. -/
def resolveWith (profile : Profile) (options : Options) (document : Entries) : Logged Model := do
  let graph ← readGraph document
  .emit (.resolving graph.nodes.size profile.language)
  (Resolver.withOptions profile.primitive? options graph).resolve profile.language

/-- Resolves a document for a target language. -/
def resolveDocument (profile : Profile) (requested : String) (config : Config)
    (document : Entries) : Logged Model :=
  resolveWith profile (effectiveConfig profile requested config).options document

end RamlTypes
