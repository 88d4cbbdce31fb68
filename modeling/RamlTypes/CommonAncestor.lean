import RamlTypes.Hierarchy
import RamlTypes.Log.Logged

/-!
# Common ancestors

The members of a union are typed as their nearest shared ancestor. A type is no ancestor of itself,
and a name that is not declared has none; members without a shared ancestor are typed as the
universal base type.
-/

namespace RamlTypes

namespace Hierarchy

/-- The ancestors of a member, nearest first. -/
def memberAncestors (h : Hierarchy) (member : String) : Except Fault (List String) :=
  if h.graph.isDeclared member then h.ancestors member else .ok []

/-- How far a name is away at most, over all the chains. -/
def depthIn (chains : List (List String)) (name : String) : Nat :=
  (chains.map fun chain => chain.idxOf name).foldl max 0

/-- The name shared by all chains that is least far away; of several ones the least by name. -/
def nearestShared : List (List String) → Option String
  | [] => none
  | first :: rest =>
      let shared := (sortNames first).filter fun name => rest.all (·.contains name)
      leastBy (depthIn (first :: rest)) shared

/-- The nearest common ancestor of the given members, repeated members counting once. -/
def commonAncestor (h : Hierarchy) (universal : Value) (members : List String) :
    Logged Value := do
  let members := members.eraseDups
  let chains ← members.mapM fun member => .ofExcept (h.memberAncestors member)
  match nearestShared chains with
  | some ancestor => return .text ancestor
  | none => do
      if !members.isEmpty then
        .emit (.noCommonAncestor members universal.display)
      return universal

end Hierarchy

end RamlTypes
