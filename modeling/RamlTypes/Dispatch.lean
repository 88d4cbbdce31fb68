import RamlTypes.Hierarchy
import RamlTypes.TypeExpr.Parser

/-!
# Abstract types and dispatch

A root type with children that is never used itself is abstract. With an annotation style, an
abstract type gets a deserializer that picks a child by a discriminant field, if some union among
the properties has all its children as members.
-/

namespace RamlTypes

/-- The type names that properties and payloads use, and the member names of the unions among the
properties. -/
structure Usage where
  used : List String
  unions : List (List String)
deriving DecidableEq, Repr

/-- Whether some union has all the names as members. -/
def Usage.covers (usage : Usage) (names : List String) : Bool :=
  usage.unions.any fun members => names.all members.contains

namespace TypeGraph

def usedNames (g : TypeGraph) : List String :=
  (g.allProperties.flatMap fun property => property.type.referencedNames) ++
    (g.allMethods.flatMap (·.payloadTypes)).flatMap fun payload =>
      (TypeExpr.parse payload).referencedNames

def unionMembers (g : TypeGraph) : List (List String) :=
  g.allProperties.flatMap fun property =>
    property.type.unions.map fun (_, members) => members.map (·.memberName)

def usage (g : TypeGraph) : Usage := ⟨g.usedNames, g.unionMembers⟩

end TypeGraph

/-- A hierarchy together with the usage of its types and the annotation style. -/
structure Dispatch where
  hierarchy : Hierarchy
  usage : Usage
  annotations : String

namespace Dispatch

/-- The field that a deserializer picks a child by. -/
def discriminant : String := "name"

def deserializerName (typeName : String) : String := typeName ++ "Deserializer"

def isUsed (d : Dispatch) (name : String) : Bool := d.usage.used.contains name

def isAbstract (d : Dispatch) (name : String) : Bool :=
  !(d.hierarchy.children name).isEmpty && !d.isUsed name &&
    (d.hierarchy.graph.parent? name).isNone

/-- Whether references to a type are read by a deserializer of its own. -/
def needsDeserializer (d : Dispatch) (name : String) : Bool :=
  d.annotations != "" && d.isAbstract name && d.usage.covers (d.hierarchy.children name)

/-- What references to a type are read through: its deserializer, the type itself below a parent
with a deserializer, and nothing otherwise. -/
def deserializerTarget (d : Dispatch) (name : String) : String :=
  if d.needsDeserializer name then deserializerName name
  else match d.hierarchy.graph.parent? name with
    | some parent => if d.needsDeserializer parent then name else ""
    | none => ""

end Dispatch

end RamlTypes
