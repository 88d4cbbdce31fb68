import RamlTypes.Fault

/-!
# Target types

The type of a resolved field. An object is known by its name alone, which need not be declared. A
union is typed as a common ancestor, or as whatever the options have for unions without one.
-/

namespace RamlTypes

inductive TargetType where
  /-- A built-in type, as the target language spells it. -/
  | primitive (name : String)
  | listOf (element : TargetType)
  | enumRef (name : String)
  | objectRef (name : String)
  /-- A union, typed as the nearest common ancestor of its members. -/
  | unionOf (commonAncestor : Value) (members : List TargetType)
deriving Repr, Inhabited

namespace TargetType

def isList : TargetType → Bool
  | listOf _ => true
  | _ => false

def isUnion : TargetType → Bool
  | unionOf _ _ => true
  | _ => false

/-- The type whose properties a field of this type has, if it is a single one. -/
def referenced? : TargetType → Option String
  | objectRef name => some name
  | unionOf (.scalar (.text name)) _ => some name
  | _ => none

theorem referenced?_eq_some_iff {target : TargetType} {name : String} :
    target.referenced? = some name ↔
      target = .objectRef name ∨ ∃ members, target = .unionOf name members := by
  fun_cases referenced? target <;> simp_all [Value.text]

/-- Looking up the type that a target refers to fails where that is a collection. -/
def checkReference : TargetType → Except Fault Unit
  | unionOf commonAncestor _ =>
      match commonAncestor.keyProblem? with
      | some kind => .error (.misfit (.noKey kind))
      | none => .ok ()
  | _ => .ok ()

end TargetType

end RamlTypes
