/-!
# Type expressions

A type expression names a type, or is an array, a map or a union of type expressions. Every
expression keeps the text that it was read from.
-/

namespace RamlTypes

inductive TypeExpr where
  /-- A name; a dotted one is split into the qualifier and the last segment. -/
  | named (raw name qualifier : String)
  | array (raw : String) (dimensions : Nat) (element : TypeExpr)
  | map (raw : String) (value : TypeExpr)
  | union (raw : String) (members : List TypeExpr)
deriving Repr, Inhabited

namespace TypeExpr

def raw : TypeExpr → String
  | named raw _ _ => raw
  | array raw _ _ => raw
  | map raw _ => raw
  | union raw _ => raw

/-- What a union member is known by: the last segment of a name, the whole text otherwise. -/
def memberName : TypeExpr → String
  | named _ name _ => name
  | array raw _ _ => raw
  | map raw _ => raw
  | union raw _ => raw

def isUnion : TypeExpr → Bool
  | union _ _ => true
  | _ => false

mutual

/-- The names that occur in an expression, from left to right; empty ones do not count. -/
def referencedNames : TypeExpr → List String
  | named _ name _ => if name = "" then [] else [name]
  | array _ _ element => element.referencedNames
  | map _ value => value.referencedNames
  | union _ members => referencedNamesOfAll members

def referencedNamesOfAll : List TypeExpr → List String
  | [] => []
  | expr :: rest => expr.referencedNames ++ referencedNamesOfAll rest

end

mutual

/-- The members of every union that occurs in an expression, outer unions first, together with the
text of the union. -/
def unions : TypeExpr → List (String × List TypeExpr)
  | named _ _ _ => []
  | array _ _ element => element.unions
  | map _ value => value.unions
  | union raw members => (raw, members) :: unionsOfAll members

def unionsOfAll : List TypeExpr → List (String × List TypeExpr)
  | [] => []
  | expr :: rest => expr.unions ++ unionsOfAll rest

end

end TypeExpr

end RamlTypes
