import RamlTypes.Sorting
import RamlTypes.Text.Identifier
import RamlTypes.TypeGraph.Basic

/-!
# Required overrides

A property may restate properties of the type that it refers to and require more of them. The names
that only this use requires are found by one of two rules, which differ where a restated name does
not sort behind all names that the type requires itself.
-/

namespace RamlTypes

/-- The order in which a difference of sets of names is gone through. It may be another one in every
run and depend on how the first set has come about, but only on the members of the second one. -/
structure SetOrder where
  /-- The names of the first list that are not in the second one. -/
  difference : List String → List String → List String
  perm : ∀ names others,
    (difference names others).Perm (names.eraseDups.filter fun name => !others.contains name)
  congr : ∀ names others others', (∀ name, name ∈ others ↔ name ∈ others') →
    difference names others = difference names others'

/-- Every name comes where it is first seen. -/
def SetOrder.firstSeen : SetOrder where
  difference names others := names.eraseDups.filter fun name => !others.contains name
  perm _ _ := .refl _
  congr names others others' same := by
    refine List.filter_congr fun name _ => congrArg (!·) ?_
    rw [Bool.eq_iff_iff, List.contains_iff_mem, List.contains_iff_mem, same]

instance : Inhabited SetOrder := ⟨.firstSeen⟩

/-- How to find the names that only one use of a type requires. -/
inductive OverrideRule where
  /-- All names behind as many as the type itself requires, in sorted order. -/
  | suffix
  /-- The names that the type itself does not require. Names that sort level come in the order of
  the run. -/
  | difference (order : SetOrder)

def requiredNames (properties : List Property) : List String :=
  (properties.filter (·.required)).map (·.name)

/-- The names of inline children that a property requires beyond what the referenced type requires
itself; none unless it requires more of them. -/
def TypeGraph.requiredOverrides (g : TypeGraph) (rule : OverrideRule) (property : Property)
    (referenced : Option String) : List String :=
  match referenced.bind g.node? with
  | none => []
  | some node =>
      let own := requiredNames node.properties.values
      let inline := requiredNames property.children
      if inline.length ≤ own.length then []
      else match rule with
        | .suffix => (sortOn Text.titleCase inline).drop own.length
        | .difference order => sortOn Text.titleCase (order.difference inline own)

end RamlTypes
