import RamlTypes.Session.Memory

/-!
# Query sessions

A session answers questions about one type graph one after the other, and remembers what it has
computed for them. The memory only saves work: a question has the same answer in every session over
the graph.
-/

namespace RamlTypes

inductive Query where
  | isDeclared (name : String)
  | names
  | chain (name : String)
  | ancestors (name : String)
  | parent (name : String)
  | children (name : String)
  | flatten (chain : List String)
  | effective (name : String)
  | isMember (name : String) (property : Property)
  | overrides (property : Property) (referenced : Option String)
  | commonAncestor (members : List String)
  | mapType (text : String)
  | mapProperty (owner : String) (property : Property)
  | mapEnum (owner propertyName : String) (literals : List Value) (valueType : String)
  | usedTypes
  | unionSets
  | isUsed (name : String)
  | isAbstract (name : String)
  | needsDeserializer (name : String)
  | deserializerTarget (name : String)

inductive Answer where
  | flag (value : Bool)
  | name (name : String)
  | base (type : Value)
  | optionalName (name : Option String)
  | names (names : List String)
  | nameSets (sets : List (List String))
  | properties (properties : Table String Property)
  | target (type : TargetType)
  | enum (definition : EnumDef)

/-- The members of a list, each once, in the order of code points. -/
def sortedSet (names : List String) : List String := sortNames names.eraseDups

/-- The answer to a question, given everything that a resolution depends on. -/
def Resolver.answer (r : Resolver) : Query → Logged Answer
  | .isDeclared name => return .flag (r.graph.isDeclared name)
  | .names => return .names r.graph.names
  | .chain name => .ofExcept (.names <$> r.hierarchy.chain name)
  | .ancestors name => .ofExcept (.names <$> r.hierarchy.ancestors name)
  | .parent name => return .optionalName (r.graph.parent? name)
  | .children name => return .names (r.hierarchy.children name)
  | .flatten chain => .ofExcept (.properties <$> r.graph.flatten chain)
  | .effective name => .ofExcept (.properties <$> r.hierarchy.effectiveProperties name)
  | .isMember name property => .ofExcept (.flag <$> r.hierarchy.isMember name property)
  | .overrides property referenced =>
      return .names (r.graph.requiredOverrides r.options.overrideRule property referenced)
  | .commonAncestor members =>
      .base <$> r.hierarchy.commonAncestor r.options.universalBaseType members
  | .mapType text => .target <$> r.mapper.mapType (.parse text)
  | .mapProperty owner property => .target <$> r.mapper.mapProperty owner property
  | .mapEnum owner propertyName literals valueType =>
      .enum <$> EnumDef.ofLiterals owner propertyName literals valueType
  | .usedTypes => return .names (sortedSet r.usage.used)
  | .unionSets => return .nameSets (r.usage.unions.map sortedSet)
  | .isUsed name => return .flag (r.dispatch.isUsed name)
  | .isAbstract name => return .flag (r.dispatch.isAbstract name)
  | .needsDeserializer name => return .flag (r.dispatch.needsDeserializer name)
  | .deserializerTarget name => return .name (r.dispatch.deserializerTarget name)

/-- A series of questions about one graph. -/
structure Session where
  graph : TypeGraph
  primitive? : String → Option String
  config : Config
  memory : Memory

namespace Session

def start (primitive? : String → Option String) (config : Config) (graph : TypeGraph) : Session :=
  ⟨graph, primitive?, config, .empty⟩

/-- What the answers would depend on without a memory. -/
def resolver (s : Session) : Resolver := .ofGraph s.primitive? s.config s.graph

/-- The answer to a question, with the help of the memory. -/
def remembered (s : Session) : Query → Recalling Answer
  | .chain name => .names <$> Recalling.chain s.graph name
  | .ancestors name => .names <$> Recalling.ancestors s.graph name
  | .children name => .names <$> Recalling.children s.graph name
  | .effective name => .properties <$> Recalling.effectiveProperties s.graph name
  | .isMember name property => .flag <$> Recalling.isMember s.graph name property
  | .commonAncestor members =>
      .base <$> Recalling.commonAncestor s.graph s.config.universalBaseType members
  | .mapType text =>
      .target <$> Recalling.mapType s.graph s.primitive? s.config.universalBaseType (.parse text)
  | .mapProperty owner property =>
      .target <$> Recalling.mapProperty s.graph s.primitive? s.config.universalBaseType owner
        property
  | .usedTypes => (fun names => .names (sortedSet names)) <$> Recalling.used s.graph
  | .unionSets => (fun sets => .nameSets (sets.map sortedSet)) <$> Recalling.unions s.graph
  | .isUsed name => .flag <$> Recalling.isUsed s.graph name
  | .isAbstract name => .flag <$> Recalling.isAbstract s.graph name
  | .needsDeserializer name =>
      .flag <$> Recalling.needsDeserializer s.graph s.config.annotations name
  | .deserializerTarget name =>
      .name <$> Recalling.deserializerTarget s.graph s.config.annotations name
  -- The other questions are about the graph alone.
  | q => .ofLogged (s.resolver.answer q)

/-- The answer to a question, and the session that remembers what was computed for it. -/
def ask (s : Session) (q : Query) : Logged Answer × Session :=
  let (answer, memory) := s.remembered q s.memory
  (answer, { s with memory })

/-- The answers to questions asked one after the other. -/
def askAll (s : Session) : List Query → List (Logged Answer)
  | [] => []
  | q :: rest =>
      let (answer, s) := s.ask q
      answer :: s.askAll rest

end Session

end RamlTypes
