import RamlTypes.EnumDef
import RamlTypes.Target
import RamlTypes.TypeGraph.Basic

/-!
# Resolved models

A model holds one class for each resolved type with its properties flattened, all enums and
deserializers, and a warning for everything that was dropped.
-/

namespace RamlTypes

structure ResolvedField where
  name : String
  type : TargetType
  required : Bool
  /-- Whether the field is emitted on the class itself and not on an ancestor. -/
  isMember : Bool
  requiredOverrides : List String
  /-- The member names of a field that is a union. -/
  unionMembers : Option (List String)
  description : String

structure ResolvedClass where
  name : String
  kind : TypeKind
  parent : Option String
  /-- Nearest first. -/
  ancestors : List String
  fields : List ResolvedField
  /-- Sorted by name. -/
  children : List String
  isAbstract : Bool
  hasChildren : Bool
  hasRequiredProperties : Bool
  deserializerTarget : String
  enum : Option EnumDef
  definition : Option TargetType
  description : List String

namespace ResolvedClass

/-- The fields that are emitted on the class itself. -/
def memberFields (c : ResolvedClass) : List ResolvedField := c.fields.filter (·.isMember)

end ResolvedClass

/-- Reads an abstract type as the child that a discriminant field names. -/
structure Deserializer where
  name : String
  base : String
  children : List String
  discriminant : String
deriving DecidableEq, Repr

structure Model where
  title : String
  backend : String
  classes : List ResolvedClass
  enums : List EnumDef
  deserializers : List Deserializer
  warnings : List FieldWarning
  /-- The parent of every declared type, left out ones included. -/
  parents : Table String (Option String)

namespace Model

def class? (m : Model) (name : String) : Option ResolvedClass :=
  m.classes.find? (·.name = name)

/-- The names from the given one up to one without a parent, if there are at most `bound`. -/
def chainWithin (m : Model) : Nat → String → Option (List String)
  | 0, _ => none
  | bound + 1, name =>
      match (m.parents.find? name).bind id with
      | none => some [name]
      | some parent => (name :: ·) <$> m.chainWithin bound parent

/-- The chain of a type by the parent links alone: empty for an unknown name, and nothing if the
links run in a circle. A parent that is not itself listed ends the chain. -/
def chain? (m : Model) (name : String) : Option (List String) :=
  if m.parents.contains name then m.chainWithin (m.parents.size + 1) name else some []

end Model

end RamlTypes
