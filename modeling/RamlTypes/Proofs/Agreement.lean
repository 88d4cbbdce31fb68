import RamlTypes.Resolution

/-!
# Agreeing hierarchies

A resolution never looks at a graph as a whole. It looks types up by name, asks for chains and
children, and asks which names are used and which unions cover some names. Where two hierarchies
and usages give the same answers, every type is resolved to the same class, with the same enums and
warnings and the same events on the way.
-/
namespace RamlTypes

/-- The two hierarchies give the same answers. -/
structure Hierarchy.Agrees (h h' : Hierarchy) : Prop where
  node? : h.graph.node? = h'.graph.node?
  chain : h.chain = h'.chain
  children : h.children = h'.children

namespace Hierarchy.Agrees

variable {h h' : Hierarchy}

theorem isDeclared (same : h.Agrees h') : h.graph.isDeclared = h'.graph.isDeclared := by
  funext name
  exact congrArg Option.isSome (congrFun same.node? name)

theorem parent? (same : h.Agrees h') : h.graph.parent? = h'.graph.parent? := by
  funext name
  rw [TypeGraph.parent?, TypeGraph.parent?, same.node?]

theorem writeProperties (same : h.Agrees h') (written : Table String Property)
    (names : List String) :
    h.graph.writeProperties written names = h'.graph.writeProperties written names := by
  induction names generalizing written with
  | nil => rfl
  | cons name rest ih =>
    -- Both find the same type or none, and go on with the same properties.
    rw [TypeGraph.writeProperties, TypeGraph.writeProperties, same.node?]
    cases h'.graph.node? name with
    | none => rfl
    | some node => exact ih _

theorem flatten (same : h.Agrees h') : h.graph.flatten = h'.graph.flatten := by
  funext chain
  exact same.writeProperties .empty chain.reverse

theorem effectiveProperties (same : h.Agrees h') :
    h.effectiveProperties = h'.effectiveProperties := by
  funext name
  rw [Hierarchy.effectiveProperties, Hierarchy.effectiveProperties, same.chain, same.flatten]

theorem isMember (same : h.Agrees h') : h.isMember = h'.isMember := by
  funext name property
  simp only [Hierarchy.isMember, same.parent?, same.effectiveProperties]

theorem memberAncestors (same : h.Agrees h') : h.memberAncestors = h'.memberAncestors := by
  funext member
  simp only [Hierarchy.memberAncestors, Hierarchy.ancestors, same.isDeclared, same.chain]

theorem commonAncestor (same : h.Agrees h') : h.commonAncestor = h'.commonAncestor := by
  funext universal members
  simp only [Hierarchy.commonAncestor, same.memberAncestors]

theorem requiredOverrides (same : h.Agrees h') :
    h.graph.requiredOverrides = h'.graph.requiredOverrides := by
  funext rule property referenced
  simp only [TypeGraph.requiredOverrides, same.node?]

section Mapping

variable {primitive? : String → Option String} {universal : Value}

mutual

/-- Only unions ask the hierarchy anything. -/
theorem mapType (same : h.Agrees h') : ∀ type : TypeExpr,
    (TypeMapper.mk primitive? h universal).mapType type =
      (TypeMapper.mk primitive? h' universal).mapType type
  | .named raw name qualifier => rfl
  | .array raw dimensions element => by
    simp only [TypeMapper.mapType, same.mapType element]
  | .map raw value => rfl
  | .union raw members => by
    simp only [TypeMapper.mapType, same.mapTypes members, same.commonAncestor]

theorem mapTypes (same : h.Agrees h') : ∀ types : List TypeExpr,
    (TypeMapper.mk primitive? h universal).mapTypes types =
      (TypeMapper.mk primitive? h' universal).mapTypes types
  | [] => rfl
  | type :: rest => by
    simp only [TypeMapper.mapTypes, same.mapType type, same.mapTypes rest]

end

theorem mapProperty (same : h.Agrees h') (owner : String) (property : Property) :
    (TypeMapper.mk primitive? h universal).mapProperty owner property =
      (TypeMapper.mk primitive? h' universal).mapProperty owner property := by
  simp only [TypeMapper.mapProperty, same.mapType]

end Mapping

end Hierarchy.Agrees

/-- The same names are used, and the same sets of names are covered by a union. -/
structure Usage.Agrees (u u' : Usage) : Prop where
  used (name : String) : u.used.contains name = u'.used.contains name
  covers (names : List String) : u.covers names = u'.covers names

/-- Everything that the resolution of a type depends on gives the same answers. -/
structure Resolver.Agrees (r r' : Resolver) : Prop where
  hierarchy : r.hierarchy.Agrees r'.hierarchy
  usage : r.usage.Agrees r'.usage
  primitive? : r.primitive? = r'.primitive?
  options : r.options = r'.options

namespace Resolver.Agrees

variable {r r' : Resolver}

theorem mapType (same : r.Agrees r') : r.mapper.mapType = r'.mapper.mapType := by
  funext type
  rw [mapper, mapper, same.primitive?, same.options]
  exact same.hierarchy.mapType type

theorem mapProperty (same : r.Agrees r') : r.mapper.mapProperty = r'.mapper.mapProperty := by
  funext owner property
  rw [mapper, mapper, same.primitive?, same.options]
  exact same.hierarchy.mapProperty owner property

/-! ### Dispatch -/

theorem isAbstract (same : r.Agrees r') : r.dispatch.isAbstract = r'.dispatch.isAbstract := by
  funext name
  simp only [Dispatch.isAbstract, Dispatch.isUsed, dispatch, same.hierarchy.children,
    same.usage.used, same.hierarchy.parent?]

theorem needsDeserializer (same : r.Agrees r') :
    r.dispatch.needsDeserializer = r'.dispatch.needsDeserializer := by
  funext name
  rw [Dispatch.needsDeserializer, Dispatch.needsDeserializer, same.isAbstract]
  simp only [dispatch, same.options, same.usage.covers, same.hierarchy.children]

theorem deserializerTarget (same : r.Agrees r') :
    r.dispatch.deserializerTarget = r'.dispatch.deserializerTarget := by
  funext name
  have up : r.dispatch.hierarchy.graph.parent? = r'.dispatch.hierarchy.graph.parent? :=
    same.hierarchy.parent?
  rw [Dispatch.deserializerTarget, Dispatch.deserializerTarget, same.needsDeserializer, up]

theorem deserializer? (same : r.Agrees r') : r.deserializer? = r'.deserializer? := by
  funext c
  simp only [Resolver.deserializer?, same.needsDeserializer]

/-! ### Fields and classes -/

theorem fieldOf (same : r.Agrees r') : r.fieldOf = r'.fieldOf := by
  funext property target isMember
  simp only [Resolver.fieldOf, graph, same.options, same.hierarchy.requiredOverrides]

theorem resolveField (same : r.Agrees r') : r.resolveField = r'.resolveField := by
  funext owner property
  simp only [Resolver.resolveField, Resolver.fieldWith, same.mapProperty, same.hierarchy.isMember,
    same.fieldOf]

theorem resolveAlias (same : r.Agrees r') : r.resolveAlias = r'.resolveAlias := by
  funext node
  simp only [Resolver.resolveAlias, same.mapType]

theorem visibleProperties (same : r.Agrees r') :
    r.visibleProperties = r'.visibleProperties := by
  funext chain
  simp only [Resolver.visibleProperties, graph, same.hierarchy.flatten, same.options]

theorem classWith (same : r.Agrees r') : r.classWith = r'.classWith := by
  funext node chain enum definition fields
  simp only [Resolver.classWith, same.hierarchy.children, same.isAbstract, same.deserializerTarget]

theorem resolveNode (same : r.Agrees r') : r.resolveNode = r'.resolveNode := by
  funext node
  simp only [Resolver.resolveNode, same.hierarchy.chain, same.resolveAlias, same.visibleProperties,
    same.resolveField, same.classWith]

/-- A type is resolved by the answers alone. -/
theorem resolveClass (same : r.Agrees r') : r.resolveClass = r'.resolveClass := by
  funext name
  simp only [Resolver.resolveClass, graph, same.hierarchy.node?, same.resolveNode]

end Resolver.Agrees

end RamlTypes
