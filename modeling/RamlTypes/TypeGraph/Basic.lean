import RamlTypes.Schema.Basic
import RamlTypes.TypeExpr.Basic

/-!
# Type graphs

A type graph holds every declared type with its type expression read, its kind and its parent, and
the resources of the schema. It is what all later analysis works on.
-/

namespace RamlTypes

inductive TypeKind where
  | scalar
  | object
  | array
  | union
  | enum
  | map
  /-- Names something that is not declared here. -/
  | reference
deriving DecidableEq, Repr

def TypeKind.text : TypeKind → String
  | scalar => "scalar"
  | object => "object"
  | array => "array"
  | union => "union"
  | enum => "enum"
  | map => "map"
  | reference => "reference"

/-- Whether the declared type of a type of this kind is its whole definition. -/
def TypeKind.isAlias : TypeKind → Bool
  | object => false
  | enum => false
  | _ => true

/-- A property with its inline children, if it has any. -/
structure Property where
  name : String
  type : TypeExpr
  required : Bool
  children : List Property
  literals : Option (List Value)
  description : String

namespace Property

def isEnum (p : Property) : Bool := p.literals.isSome

mutual

/-- A property and all its inline children, itself first. -/
def walk : Property → List Property
  | ⟨name, type, required, children, literals, description⟩ =>
      ⟨name, type, required, children, literals, description⟩ :: walkAll children

def walkAll : List Property → List Property
  | [] => []
  | child :: rest => child.walk ++ walkAll rest

end

end Property

/-- A declared type. -/
structure TypeNode where
  name : String
  kind : TypeKind
  parent : Option String
  type : TypeExpr
  properties : Table String Property
  literals : Option (List Value)
  description : String

structure TypeGraph where
  title : String
  nodes : Table String TypeNode
  resources : List Resource

namespace TypeGraph

/-- The declared names in declaration order. -/
def names (g : TypeGraph) : List String := g.nodes.keys

def node? (g : TypeGraph) (name : String) : Option TypeNode := g.nodes.find? name

def isDeclared (g : TypeGraph) (name : String) : Bool := g.nodes.contains name

/-- Every property of every type, inline children included. -/
def allProperties (g : TypeGraph) : List Property :=
  g.nodes.values.flatMap fun node => Property.walkAll node.properties.values

/-- Every method anywhere in the resource tree. -/
def allMethods (g : TypeGraph) : List Method :=
  (Resource.walkAll g.resources).flatMap (·.methods)

end TypeGraph

end RamlTypes
