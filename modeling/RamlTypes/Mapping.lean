import RamlTypes.CommonAncestor
import RamlTypes.EnumDef
import RamlTypes.Target
import RamlTypes.TypeExpr.Basic

/-!
# Mapping to target types

A type expression maps to a built-in type if its text is the keyword of one, and otherwise by its
form. Maps, arrays of more than one dimension and names without a last segment have no target type.
-/

namespace RamlTypes

/-- What a mapping depends on: the spelling of the built-in types, the hierarchy that unions are
typed by and the type of unions without a common ancestor. -/
structure TypeMapper where
  primitive? : String → Option String
  hierarchy : Hierarchy
  universal : Value

namespace TypeMapper

mutual

def mapType (m : TypeMapper) : TypeExpr → Logged TargetType
  | .named raw name _ =>
      match m.primitive? raw with
      | some primitive => pure (.primitive primitive)
      | none =>
          if name = "" then .ofExcept (.error (.mapping (.unnamed raw)))
          else pure (.objectRef name)
  | .array raw dimensions element =>
      match m.primitive? raw with
      | some primitive => pure (.primitive primitive)
      | none =>
          if 1 < dimensions then
            .ofExcept (.error (.mapping (.unsupported .nestedArray raw)))
          else do
            return .listOf (← mapType m element)
  | .map raw _ =>
      match m.primitive? raw with
      | some primitive => pure (.primitive primitive)
      | none => .ofExcept (.error (.mapping (.unsupported .map raw)))
  | .union raw members =>
      match m.primitive? raw with
      | some primitive => pure (.primitive primitive)
      | none => do
          let targets ← mapTypes m members
          let ancestor ← m.hierarchy.commonAncestor m.universal (members.map (·.memberName))
          return .unionOf ancestor targets

def mapTypes (m : TypeMapper) : List TypeExpr → Logged (List TargetType)
  | [] => pure []
  | expr :: rest => do
      let target ← mapType m expr
      return target :: (← mapTypes m rest)

end

/-- The target type of a property of the type `owner`: its own enum, if it has literals. -/
def mapProperty (m : TypeMapper) (owner : String) (property : Property) : Logged TargetType :=
  if property.isEnum then pure (.enumRef (EnumDef.nameFor owner property.name))
  else m.mapType property.type

end TypeMapper

end RamlTypes
