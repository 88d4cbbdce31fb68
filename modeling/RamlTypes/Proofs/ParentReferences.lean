import RamlTypes.Proofs.LastSegments
import RamlTypes.Proofs.Payloads

/-!
# Parents and references

A type is linked to its parent by the whole text of its inheritance clause, while a reference that
is written like the clause is to the last segment of the text. So the two are to one type where the
name of the parent has no dot to be cut at, and a type with a dotted name has children but cannot
be referred to.
-/
namespace RamlTypes

namespace TypeGraph

variable {g : TypeGraph}

theorem eq_named_of_parentOf {isDeclared : String → Bool} {type : TypeExpr} {parent : String}
    (linked : parentOf isDeclared type = some parent) :
    ∃ name qualifier, type = .named parent name qualifier := by
  have same := (parentOf_eq_some linked).2
  cases type with
  | named raw name qualifier =>
    cases same
    exact ⟨name, qualifier, rfl⟩
  | array | map | union => cases linked

/-- Read as a reference, an inheritance clause is to the last segment of the parent's name. -/
theorem parent_reference (built : g.IsBuilt) {name parent : String} {node : TypeNode}
    (found : g.node? name = some node) (linked : node.parent = some parent) :
    ∃ qualifier segment, TypeExpr.SplitsAtDot parent qualifier segment ∧
      node.type.referencedNames = (if segment = "" then [] else [segment]) ∧
      (∀ m : TypeMapper, (m.mapType node.type).outcome =
        match m.primitive? parent with
        | some primitive => .ok (.primitive primitive)
        | none =>
            if segment = "" then .error (.mapping (.unnamed parent))
            else .ok (.objectRef segment)) ∧
      (segment ≠ "" →
        (∀ p ∈ g.allProperties, p.type = node.type → segment ∈ g.usedNames) ∧
        ∀ method ∈ g.allMethods, ∀ payload ∈ method.payloadTypes,
          TypeExpr.parse payload = node.type → segment ∈ g.usedNames) ∧
      (segment = parent ↔ parent.toList.head? = some '.' ∨ '.' ∉ parent.toList) := by
  have sound := built.wellFormed.of_node? found
  obtain ⟨segment, qualifier, named⟩ := eq_named_of_parentOf (sound.parented.symm.trans linked)
  have splits : TypeExpr.SplitsAtDot parent qualifier segment := (named ▸ sound.parsed).splitsAtDot
  have names : node.type.referencedNames = if segment = "" then [] else [segment] := by
    rw [named, TypeExpr.referencedNames]
  refine ⟨qualifier, segment, splits, names, fun m => ?_, fun nonempty => ?_, splits.name_eq_iff⟩
  · rw [named, TypeMapper.mapType]
    cases m.primitive? parent with
    | some primitive => rfl
    | none =>
      dsimp only
      split <;> rfl
  · have occurs : segment ∈ node.type.referencedNames := by simp [names, nonempty]
    refine ⟨fun p listed same => mem_usedNames_of_property listed (same ▸ occurs), ?_⟩
    intro method listed payload given same
    exact mem_usedNames_of_payload listed given (same ▸ occurs)

/-- A library of pets, with one name that is dotted. -/
def libraryDocument : Entries :=
  [(.text "types", .map [
    (.text "lib.Pet", .scalar .null),
    (.text "Cat", .map [(.text "type", .text "lib.Pet")]),
    (.text "Kitten", .map [(.text "type", .text "Cat")]),
    (.text "Owner", .map [(.text "properties", .map [
      (.text "pet", .text "lib.Pet"), (.text "cat", .text "Cat")])])])]

def catNode : TypeNode :=
  { objectNode "Cat" (some "lib.Pet") .empty with type := .named "lib.Pet" "Pet" "lib" }

def kittenNode : TypeNode := objectNode "Kitten" (some "Cat") .empty

def libraryGraph : TypeGraph where
  title := ""
  nodes := ⟨[
    ("lib.Pet", objectNode "lib.Pet" none .empty),
    ("Cat", catNode),
    ("Kitten", kittenNode),
    ("Owner", objectNode "Owner" none ⟨[
      ("pet", ⟨"pet", .named "lib.Pet" "Pet" "lib", true, [], none, ""⟩),
      ("cat", ⟨"cat", .named "Cat" "Cat" "", true, [], none, ""⟩)], by simp⟩)], by simp⟩
  resources := []

theorem readGraph_library : (readGraph libraryDocument).outcome = .ok libraryGraph := by cbv

/-- The parent of kittens is what their owner refers to. -/
theorem parent_reference_kittens :
    libraryGraph.IsBuilt ∧ libraryGraph.node? "Kitten" = some kittenNode ∧
      kittenNode.parent = some "Cat" ∧ kittenNode.type.referencedNames = ["Cat"] ∧
      ((TypeMapper.mk Profile.java.primitive? libraryGraph.hierarchy "Object").mapType
        kittenNode.type).outcome = .ok (.objectRef "Cat") ∧
      "Cat" ∈ libraryGraph.usedNames := by
  have built : libraryGraph.IsBuilt := isBuilt_of_readGraph readGraph_library
  have found : libraryGraph.node? "Kitten" = some kittenNode := rfl
  have linked : kittenNode.parent = some "Cat" := rfl
  obtain ⟨_, segment, _, names, mapped, used, same⟩ := parent_reference built found linked
  cases same.mpr (.inr (by decide))
  have written : ⟨"cat", .named "Cat" "Cat" "", true, [], none, ""⟩ ∈
      libraryGraph.allProperties := List.mem_cons_of_mem _ List.mem_cons_self
  exact ⟨built, found, linked, names, mapped _, (used (by decide)).1 _ written rfl⟩

/-- The parent of cats is not: the same text refers to a type that is not declared. -/
theorem parent_reference_cats :
    (readGraph libraryDocument).outcome = .ok libraryGraph ∧
      libraryGraph.node? "Cat" = some catNode ∧ catNode.parent = some "lib.Pet" ∧
      catNode.type.referencedNames = ["Pet"] ∧
      ((TypeMapper.mk Profile.java.primitive? libraryGraph.hierarchy "Object").mapType
        catNode.type).outcome = .ok (.objectRef "Pet") ∧
      (∃ p ∈ libraryGraph.allProperties, p.type = catNode.type) ∧
      libraryGraph.isDeclared "Pet" = false ∧ "lib.Pet" ∉ libraryGraph.usedNames := by
  have written : ⟨"pet", .named "lib.Pet" "Pet" "lib", true, [], none, ""⟩ ∈
      libraryGraph.allProperties := List.mem_cons_self
  exact ⟨readGraph_library, rfl, rfl, rfl, rfl, ⟨_, written, rfl⟩, by decide, by decide⟩

end TypeGraph

end RamlTypes
