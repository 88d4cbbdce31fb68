import RamlTypes.Fault
import RamlTypes.Sorting
import RamlTypes.TypeGraph.Basic

/-!
# Inheritance

Following parents from a declared type gives its chain, or comes back to a type already passed. The
properties of a type are those of its chain, and a declaration nearer to the type replaces one of
the same name farther up without moving it.
-/

namespace RamlTypes

namespace TypeGraph

def parent? (g : TypeGraph) (name : String) : Option String := (g.node? name).bind (·.parent)

/-- The declared names that a walk has not passed yet. -/
def namesAhead (g : TypeGraph) (passed : List String) : List String :=
  g.names.filter (· ∉ passed)

theorem length_namesAhead_lt (g : TypeGraph) (passed : List String) (name : String)
    (declared : g.isDeclared name = true) (fresh : name ∉ passed) :
    (g.namesAhead (passed ++ [name])).length < (g.namesAhead passed).length := by
  have listed : name ∈ g.names := (Table.contains_iff g.nodes name).mp declared
  have member : name ∈ g.namesAhead passed := by simp [namesAhead, listed, fresh]
  have shrinks : g.namesAhead (passed ++ [name]) = (g.namesAhead passed).filter (· ≠ name) := by
    simp only [namesAhead, List.filter_filter]
    congr 1
    funext other
    by_cases same : other = name <;> simp [same]
  rw [shrinks]
  exact List.length_filter_lt_length_iff_exists.mpr ⟨name, member, by simp⟩

/-- Walks up from a name behind the names already passed. -/
def chainFrom (g : TypeGraph) (passed : List String) (name : String) :
    Except Fault (List String) :=
  if _declared : g.isDeclared name = true then
    if _fresh : name ∈ passed then .error (.cycle (passed ++ [name]))
    else match g.parent? name with
      | none => .ok (passed ++ [name])
      | some parent => chainFrom g (passed ++ [name]) parent
  else .ok passed
termination_by (g.namesAhead passed).length
decreasing_by exact length_namesAhead_lt g passed name _declared _fresh

/-- A type, its parent, its parent's parent and so on; empty for a name that is not declared. -/
def chain (g : TypeGraph) (name : String) : Except Fault (List String) := g.chainFrom [] name

/-- The names whose parent is the given one, in the order of code points. -/
def children (g : TypeGraph) (name : String) : List String :=
  sortNames ((g.nodes.entries.filter fun entry => entry.2.parent = some name).map Prod.fst)

end TypeGraph

/-- A type graph with a way to look up chains and children. -/
structure Hierarchy where
  graph : TypeGraph
  chain : String → Except Fault (List String)
  children : String → List String

/-- The hierarchy that walks the graph anew for every question. -/
def TypeGraph.hierarchy (g : TypeGraph) : Hierarchy := ⟨g, g.chain, g.children⟩

/-- Writes the properties of the given types, one type after the other. -/
def TypeGraph.writeProperties (g : TypeGraph) (written : Table String Property) :
    List String → Except Fault (Table String Property)
  | [] => .ok written
  | name :: rest =>
      match g.node? name with
      | none => .error (.undeclared name)
      | some node => g.writeProperties (written.insertAll node.properties.entries) rest

/-- The properties of a chain, merged from its root to its start. -/
def TypeGraph.flatten (g : TypeGraph) (chain : List String) :
    Except Fault (Table String Property) :=
  g.writeProperties .empty chain.reverse

namespace Hierarchy

/-- The chain of a type without the type itself. -/
def ancestors (h : Hierarchy) (name : String) : Except Fault (List String) :=
  (·.tail) <$> h.chain name

def effectiveProperties (h : Hierarchy) (name : String) :
    Except Fault (Table String Property) := do
  h.graph.flatten (← h.chain name)

/-- Whether a property belongs to the type itself, and not to an ancestor that has it with the same
declared type. The literals of an enum are named for the type, so its property always does. -/
def isMember (h : Hierarchy) (name : String) (property : Property) : Except Fault Bool :=
  match h.graph.parent? name with
  | none => .ok true
  | some parent =>
      if property.isEnum then .ok true
      else do
        match (← h.effectiveProperties parent).find? property.name with
        | none => return true
        | some inherited => return inherited.type.raw ≠ property.type.raw

end Hierarchy

end RamlTypes
