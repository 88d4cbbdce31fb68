import RamlTypes.Proofs.AbstractTypes
import RamlTypes.Proofs.CommonAncestors

/-!
# Types that are dispatched

An abstract type is the base of a dispatch if some union has all of its children as members. The
class of the base, the classes of its children and the list of deserializers are each computed on
their own, from the usage of the whole graph. They agree because the condition is one about the
graph: it does not matter which types are left out of the model.

A base is a root, so its children have no other ancestor. Therefore a union that has the children as
members is typed as the base or, with a member from elsewhere, as the universal type.
-/
namespace RamlTypes

/-! ### Unions inside of expressions -/

namespace TypeExpr

theorem unionsOfAll_eq (exprs : List TypeExpr) : unionsOfAll exprs = exprs.flatMap unions := by
  induction exprs with
  | nil => rfl
  | cons expr rest ih => rw [unionsOfAll, ih, List.flatMap_cons]

theorem unions_subset_of_operand {whole operand : TypeExpr} (listed : operand ∈ whole.operands) :
    operand.unions ⊆ whole.unions := by
  intro union member
  cases whole with
  | named => cases listed
  | array raw dimensions element =>
    cases List.mem_singleton.mp listed
    exact member
  | map raw value =>
    cases List.mem_singleton.mp listed
    exact member
  | union raw members =>
    rw [unions, unionsOfAll_eq]
    exact List.mem_cons_of_mem _ (List.mem_flatMap.mpr ⟨operand, listed, member⟩)

theorem isPart_of_mem_unions {raw : String} {members : List TypeExpr} (type : TypeExpr)
    (listed : (raw, members) ∈ type.unions) : IsPart (.union raw members) type := by
  cases type with
  | named => cases listed
  | array _ _ element =>
    exact .within (List.mem_singleton.mpr rfl) (isPart_of_mem_unions element listed)
  | map _ value =>
    exact .within (List.mem_singleton.mpr rfl) (isPart_of_mem_unions value listed)
  | union _ operands =>
    rw [unions, unionsOfAll_eq] at listed
    rcases List.mem_cons.mp listed with same | inner
    · cases same
      exact .self
    · obtain ⟨operand, member, found⟩ := List.mem_flatMap.mp inner
      exact .within member (isPart_of_mem_unions operand found)
termination_by type

/-- The unions of an expression are its parts that are unions. -/
theorem mem_unions_iff {type : TypeExpr} {raw : String} {members : List TypeExpr} :
    (raw, members) ∈ type.unions ↔ IsPart (.union raw members) type := by
  refine ⟨isPart_of_mem_unions type, fun inside => ?_⟩
  induction inside with
  | self =>
    rw [unions]
    exact List.mem_cons_self
  | within listed _ ih => exact unions_subset_of_operand listed ih

end TypeExpr

namespace TypeGraph

variable {g : TypeGraph} {name : String}

/-! ### Bases -/

/-- Some union inside of a property has all the names among its members. -/
def Unites (g : TypeGraph) (names : List String) : Prop :=
  ∃ p ∈ g.allProperties, ∃ raw members, TypeExpr.IsPart (.union raw members) p.type ∧
    ∀ name ∈ names, ∃ member ∈ members, member.memberName = name

/-- A root that is known by its children only. -/
structure IsAbstract (g : TypeGraph) (name : String) : Prop where
  parental : g.children name ≠ []
  unused : name ∉ g.usedNames
  root : g.parent? name = none

/-- An abstract type whose children are members of one union. -/
structure IsDispatched (g : TypeGraph) (base : String) : Prop where
  isAbstract : g.IsAbstract base
  united : g.Unites (g.children base)

theorem covers_usage_iff {names : List String} : g.usage.covers names = true ↔ g.Unites names := by
  simp only [Usage.covers, usage, unionMembers, Unites, List.any_eq_true, List.mem_flatMap,
    List.mem_map, Prod.exists, List.all_eq_true, List.contains_iff_mem, TypeExpr.mem_unions_iff]
  constructor
  · rintro ⟨_, ⟨p, listed, raw, members, inside, rfl⟩, covers⟩
    exact ⟨p, listed, raw, members, inside, fun name wanted => List.mem_map.mp (covers name wanted)⟩
  · rintro ⟨p, listed, raw, members, inside, covers⟩
    exact ⟨_, ⟨p, listed, raw, members, inside, rfl⟩,
      fun name wanted => List.mem_map.mpr (covers name wanted)⟩

/-- The dispatch of a graph with an annotation style. -/
def dispatch (g : TypeGraph) (annotations : String) : Dispatch :=
  ⟨g.hierarchy, g.usage, annotations⟩

theorem isAbstract_dispatch_iff {annotations : String} :
    (g.dispatch annotations).isAbstract name = true ↔ g.IsAbstract name := by
  rw [Dispatch.isAbstract_iff]
  constructor
  · rintro ⟨parental, unused, root⟩
    exact ⟨parental, unused, root⟩
  · rintro ⟨parental, unused, root⟩
    exact ⟨parental, unused, root⟩

theorem needsDeserializer_iff {annotations : String} :
    (g.dispatch annotations).needsDeserializer name = true ↔
      annotations ≠ "" ∧ g.IsDispatched name := by
  simp only [Dispatch.needsDeserializer, Bool.and_eq_true, isAbstract_dispatch_iff]
  change ((annotations != "") = true ∧ g.IsAbstract name) ∧
    g.usage.covers (g.children name) = true ↔ _
  rw [covers_usage_iff, bne_iff_ne]
  constructor
  · rintro ⟨⟨styled, isAbstract⟩, united⟩
    exact ⟨styled, isAbstract, united⟩
  · rintro ⟨styled, isAbstract, united⟩
    exact ⟨⟨styled, isAbstract⟩, united⟩

private theorem append_suffix_ne (name : String) : name ++ "Deserializer" ≠ name := by
  intro same
  simpa using congrArg String.length same

section Targets

variable {annotations : String} (styled : annotations ≠ "")
include styled

/-- A base is read through its deserializer and its children are read as themselves. -/
theorem deserializerTarget_cases (name : String) :
    (g.IsDispatched name ∧
      (g.dispatch annotations).deserializerTarget name = name ++ "Deserializer") ∨
    (¬ g.IsDispatched name ∧ (∃ parent, g.parent? name = some parent ∧ g.IsDispatched parent) ∧
      (g.dispatch annotations).deserializerTarget name = name) ∨
    (¬ g.IsDispatched name ∧ (∀ parent, g.parent? name = some parent → ¬ g.IsDispatched parent) ∧
      (g.dispatch annotations).deserializerTarget name = "") := by
  have needs (other : String) :
      (g.dispatch annotations).needsDeserializer other = true ↔ g.IsDispatched other := by
    rw [needsDeserializer_iff, and_iff_right styled]
  have graph : (g.dispatch annotations).hierarchy.graph = g := rfl
  simp only [Dispatch.deserializerTarget, Dispatch.deserializerName, graph, ← needs]
  cases base : (g.dispatch annotations).needsDeserializer name with
  | true => simp
  | false =>
    cases g.parent? name with
    | none => simp
    | some parent =>
      cases above : (g.dispatch annotations).needsDeserializer parent <;> simp [above]

theorem deserializerTarget_eq_deserializer_iff :
    (g.dispatch annotations).deserializerTarget name = name ++ "Deserializer" ↔
      g.IsDispatched name := by
  rcases deserializerTarget_cases (g := g) styled name with
    ⟨base, target⟩ | ⟨plain, _, target⟩ | ⟨plain, _, target⟩
  · exact iff_of_true target base
  · rw [target]
    exact iff_of_false (append_suffix_ne name).symm plain
  · rw [target]
    refine iff_of_false (fun same => ?_) plain
    simpa using congrArg String.length same.symm

theorem deserializerTarget_eq_self_iff (named : name ≠ "") :
    (g.dispatch annotations).deserializerTarget name = name ↔
      ∃ parent, g.parent? name = some parent ∧ g.IsDispatched parent := by
  rcases deserializerTarget_cases (g := g) styled name with
    ⟨base, target⟩ | ⟨_, below, target⟩ | ⟨_, apart, target⟩
  · rw [target]
    -- A base is a root, so it is not below another one.
    refine iff_of_false (append_suffix_ne name) ?_
    rintro ⟨parent, up, _⟩
    simp [base.isAbstract.root] at up
  · exact iff_of_true target below
  · rw [target]
    refine iff_of_false (Ne.symm named) ?_
    rintro ⟨parent, up, dispatched⟩
    exact apart parent up dispatched

theorem deserializerTarget_eq_empty_iff (named : name ≠ "") :
    (g.dispatch annotations).deserializerTarget name = "" ↔
      ¬ g.IsDispatched name ∧
        ∀ parent, g.parent? name = some parent → ¬ g.IsDispatched parent := by
  rcases deserializerTarget_cases (g := g) styled name with
    ⟨base, target⟩ | ⟨_, ⟨parent, up, dispatched⟩, target⟩ | ⟨plain, apart, target⟩
  · simp [target, base]
  · rw [target]
    exact iff_of_false named fun apart => apart.2 parent up dispatched
  · exact iff_of_true target ⟨plain, apart⟩

end Targets

end TypeGraph

/-! ### Models -/

/-- The model dispatches the bases of the graph. The class of a base is read through a deserializer
that picks one of the children, and a class whose parent is a base, in the model or not, is read as
itself. -/
structure Model.Dispatches (m : Model) (g : TypeGraph) : Prop where
  isAbstract : ∀ c ∈ m.classes, c.isAbstract = true ↔ g.IsAbstract c.name
  base : ∀ c ∈ m.classes,
    c.deserializerTarget = c.name ++ "Deserializer" ↔ g.IsDispatched c.name
  child : ∀ c ∈ m.classes, c.deserializerTarget = c.name ↔
    ∃ parent, c.parent = some parent ∧ g.IsDispatched parent
  other : ∀ c ∈ m.classes, c.deserializerTarget = "" ↔
    ¬ g.IsDispatched c.name ∧ ∀ parent, c.parent = some parent → ¬ g.IsDispatched parent
  deserializers : m.deserializers =
    (m.classes.filter fun c => c.deserializerTarget = c.name ++ "Deserializer").map fun c =>
      ⟨c.name ++ "Deserializer", c.name, c.children, "name"⟩
  sorted : ∀ d ∈ m.deserializers, d.children.Pairwise (· < ·)
  children : ∀ d ∈ m.deserializers, ∀ name,
    name ∈ d.children ↔ g.isDeclared name = true ∧ g.parent? name = some d.base
  dispatched : ∀ d ∈ m.deserializers, ∀ c ∈ m.classes,
    c.parent = some d.base ∧ c.deserializerTarget = c.name ↔ c.name ∈ d.children

namespace TypeGraph

variable {g : TypeGraph} {m : Model} {c : ResolvedClass}
variable {primitive? : String → Option String} {config : Config} {backend : String}

/-- A class has its place in the dispatch from the graph. -/
theorem placed_of_mem_classes (keyed : g.Keyed)
    (returned : ((Resolver.ofGraph primitive? config g).resolve backend).outcome = .ok m)
    (member : c ∈ m.classes) :
    c.name ∈ g.names ∧ c.parent = g.parent? c.name ∧
      c.isAbstract = (g.dispatch config.annotations).isAbstract c.name ∧
      c.deserializerTarget = (g.dispatch config.annotations).deserializerTarget c.name := by
  obtain ⟨node, resolution, found, named, resolved, rfl⟩ :=
    resolveNode_of_mem_classes keyed returned member
  obtain ⟨_, isAbstract, target⟩ := resolveNode_placed resolved
  have parented : resolution.record.parent = node.parent := by
    obtain ⟨_, _, _, _, _, _, _, _, _, _, rfl⟩ := Resolver.resolveNode_ok_iff.mp resolved
    rfl
  refine ⟨Table.mem_keys_of_find? found, ?_, named ▸ isAbstract, named ▸ target⟩
  rw [parented, parent?, found]
  rfl

theorem deserializers_of_resolve
    (returned : ((Resolver.ofGraph primitive? config g).resolve backend).outcome = .ok m) :
    m.deserializers = (m.classes.filter fun c =>
      (g.dispatch config.annotations).needsDeserializer c.name).map fun c =>
        ⟨c.name ++ "Deserializer", c.name, c.children, "name"⟩ := by
  obtain ⟨_, resolutions, _, rfl⟩ := resolve_ok_iff.mp returned
  rw [← List.filterMap_eq_map, List.filterMap_filter]
  rfl

theorem dispatches_of_resolve (keyed : g.Keyed) (named : "" ∉ g.names)
    (styled : config.annotations ≠ "")
    (returned : ((Resolver.ofGraph primitive? config g).resolve backend).outcome = .ok m) :
    m.Dispatches g := by
  have named' : ∀ c ∈ m.classes, c.name ≠ "" := by
    rintro c member empty
    exact named (empty ▸ (placed_of_mem_classes keyed returned member).1)
  have base : ∀ c ∈ m.classes,
      c.deserializerTarget = c.name ++ "Deserializer" ↔ g.IsDispatched c.name := by
    intro c member
    obtain ⟨_, _, _, target⟩ := placed_of_mem_classes keyed returned member
    rw [target]
    exact deserializerTarget_eq_deserializer_iff styled
  have child : ∀ c ∈ m.classes, c.deserializerTarget = c.name ↔
      ∃ parent, c.parent = some parent ∧ g.IsDispatched parent := by
    intro c member
    obtain ⟨_, parented, _, target⟩ := placed_of_mem_classes keyed returned member
    rw [target, parented]
    exact deserializerTarget_eq_self_iff styled (named' c member)
  -- Every deserializer is the one of a class that is a base.
  have source : ∀ d ∈ m.deserializers, g.IsDispatched d.base ∧ d.children = g.children d.base := by
    intro d listed
    rw [deserializers_of_resolve returned] at listed
    obtain ⟨c, kept, rfl⟩ := List.mem_map.mp listed
    obtain ⟨member, needs⟩ := List.mem_filter.mp kept
    exact ⟨(needsDeserializer_iff.mp needs).2, children_of_mem_classes keyed returned member⟩
  constructor
  · intro c member
    obtain ⟨_, _, isAbstract, _⟩ := placed_of_mem_classes keyed returned member
    rw [isAbstract]
    exact isAbstract_dispatch_iff
  · exact base
  · exact child
  · intro c member
    obtain ⟨_, parented, _, target⟩ := placed_of_mem_classes keyed returned member
    rw [target, parented]
    exact deserializerTarget_eq_empty_iff styled (named' c member)
  · rw [deserializers_of_resolve returned]
    congr 1
    refine List.filter_congr fun c member => Bool.eq_iff_iff.mpr ?_
    rw [decide_eq_true_iff, base c member, needsDeserializer_iff, and_iff_right styled]
  · intro d listed
    rw [(source d listed).2]
    exact g.children_strict d.base
  · intro d listed name
    rw [(source d listed).2]
    exact mem_children_iff
  · intro d listed c member
    obtain ⟨dispatched, children⟩ := source d listed
    obtain ⟨declared, parented, _, _⟩ := placed_of_mem_classes keyed returned member
    rw [child c member, children, mem_children_iff, ← parented]
    constructor
    · rintro ⟨up, _⟩
      exact ⟨(Table.contains_iff g.nodes c.name).mpr declared, up⟩
    · rintro ⟨_, up⟩
      exact ⟨up, d.base, up, dispatched⟩

/-- Without an annotation style nothing is dispatched; with one, the classes and the deserializers
of the model agree on what is. -/
theorem resolve_dispatches (keyed : g.Keyed) (named : "" ∉ g.names)
    (returned : ((Resolver.ofGraph primitive? config g).resolve backend).outcome = .ok m) :
    (config.annotations = "" →
      m.deserializers = [] ∧ ∀ c ∈ m.classes, c.deserializerTarget = "") ∧
    (config.annotations ≠ "" → m.Dispatches g) := by
  refine ⟨fun plain => ?_, fun styled => dispatches_of_resolve keyed named styled returned⟩
  have unneeded (name : String) :
      (g.dispatch config.annotations).needsDeserializer name = false := by
    rw [Bool.eq_false_iff, Ne, needsDeserializer_iff]
    exact fun needed => needed.1 plain
  constructor
  · simp [deserializers_of_resolve returned, unneeded]
  · intro c member
    obtain ⟨_, _, _, target⟩ := placed_of_mem_classes keyed returned member
    rw [target]
    simp only [Dispatch.deserializerTarget, unneeded, Bool.false_eq_true, if_false]
    split <;> rfl

/-- The properties of a garden, with unions of pets, of plants and of pets and texts. -/
def gardenProperties : Table String Property :=
  ⟨[
    ("visitor", ⟨"visitor", .union "Cat | Dog" [.named "Cat" "Cat" "", .named "Dog" "Dog" ""],
      true, [], none, ""⟩),
    ("beds", ⟨"beds", .array "(Moss | Fern)[]" 1
      (.union "Moss | Fern" [.named "Moss" "Moss" "", .named "Fern" "Fern" ""]),
      true, [], none, ""⟩),
    ("guest", ⟨"guest", .union "Dog | Cat | string"
      [.named "Dog" "Dog" "", .named "Cat" "Cat" "", .named "string" "string" ""],
      true, [], none, ""⟩)], by simp⟩

/-- Pets and plants that a garden knows by their kinds only. -/
def gardenGraph : TypeGraph where
  title := ""
  nodes := ⟨[
    ("Pet", objectNode "Pet" none .empty),
    ("Dog", objectNode "Dog" (some "Pet") .empty),
    ("Cat", objectNode "Cat" (some "Pet") .empty),
    ("Puppy", objectNode "Puppy" (some "Dog") .empty),
    ("Plant", objectNode "Plant" none .empty),
    ("Fern", objectNode "Fern" (some "Plant") .empty),
    ("Moss", objectNode "Moss" (some "Plant") .empty),
    ("Garden", objectNode "Garden" none gardenProperties)], by simp⟩
  resources := []

theorem gardenGraph_keyed : gardenGraph.Keyed := by
  constructor <;> decide

/-- Plants are left out of the model, but ferns and mosses are still read as themselves. -/
theorem resolve_dispatches_garden :
    gardenGraph.Keyed ∧ "" ∉ gardenGraph.names ∧
      ∃ m, ((Resolver.ofGraph Profile.java.primitive?
          { ignoreClasses := ["Plant"], annotations := "jackson" } gardenGraph).resolve
            "java").outcome = .ok m ∧
        m.classes.map (fun c => (c.name, c.deserializerTarget)) =
          [("Pet", "PetDeserializer"), ("Dog", "Dog"), ("Cat", "Cat"), ("Puppy", ""),
            ("Fern", "Fern"), ("Moss", "Moss"), ("Garden", "")] ∧
        m.deserializers = [⟨"PetDeserializer", "Pet", ["Cat", "Dog"], "name"⟩] ∧
        m.Dispatches gardenGraph := by
  have named : "" ∉ gardenGraph.names := by decide
  have resolved : ∃ m, ((Resolver.ofGraph Profile.java.primitive?
      { ignoreClasses := ["Plant"], annotations := "jackson" } gardenGraph).resolve
        "java").outcome = .ok m ∧
      m.classes.map (fun c => (c.name, c.deserializerTarget)) =
        [("Pet", "PetDeserializer"), ("Dog", "Dog"), ("Cat", "Cat"), ("Puppy", ""),
          ("Fern", "Fern"), ("Moss", "Moss"), ("Garden", "")] ∧
      m.deserializers = [⟨"PetDeserializer", "Pet", ["Cat", "Dog"], "name"⟩] :=
    ⟨_, by cbv, by cbv, by cbv⟩
  obtain ⟨m, returned, targets, deserializers⟩ := resolved
  exact ⟨gardenGraph_keyed, named, m, returned, targets, deserializers,
    (resolve_dispatches gardenGraph_keyed named returned).2 (by decide)⟩

/-! ### Unions over the children of a base -/

/-- The base is among the declared ancestors of the name. -/
def IsBelow (g : TypeGraph) (base name : String) : Prop :=
  ∃ path, g.Lineage name path ∧ base ∈ path.tail

variable {base : String}

/-- A child of a root has no ancestor but the root. -/
theorem Lineage.eq_of_mem_tail {child ancestor : String} {path : List String}
    (line : g.Lineage child path) (up : g.parent? child = some base) (root : g.parent? base = none)
    (above : ancestor ∈ path.tail) : ancestor = base := by
  cases line with
  | undeclared => cases above
  | root _ top => simp [up] at top
  | child _ up' rest =>
    cases up.symm.trans up'
    cases rest with
    | undeclared => cases above
    | root => exact List.mem_singleton.mp above
    | child _ higher _ => simp [root] at higher

theorem AncestorsOf.mem_all_iff_isBelow {names : List String} {chains : List (List String)}
    (above : g.AncestorsOf names chains) :
    (∀ chain ∈ chains, base ∈ chain) ↔ ∀ name ∈ names, g.IsBelow base name := by
  constructor
  · intro inAll name present
    obtain ⟨_, found, path, line, rfl⟩ := exists_of_mem_left above present
    exact ⟨path, line, inAll _ found⟩
  · intro below chain present
    obtain ⟨name, found, path, line, rfl⟩ := exists_of_mem_right above present
    obtain ⟨path', line', member⟩ := below name found
    cases line.unique line'
    exact member

/-- Types that have a child of a root among them share that root, or nothing. -/
theorem commonAncestor_of_child (acyclic : g.Acyclic) {child : String} {names : List String}
    (up : g.parent? child = some base) (root : g.parent? base = none) (present : child ∈ names)
    (universal : String) :
    ((∀ name ∈ names, g.IsBelow base name) ∧
      (g.hierarchy.commonAncestor universal names).outcome = .ok base) ∨
    ((¬ ∀ name ∈ names, g.IsBelow base name) ∧
      (g.hierarchy.commonAncestor universal names).outcome = .ok universal) := by
  obtain ⟨chains, computed, above⟩ := exists_ancestorsOf acyclic names.eraseDups
  have present' : child ∈ names.eraseDups := List.mem_eraseDups.mpr present
  have below : (∀ chain ∈ chains, base ∈ chain) ↔ ∀ name ∈ names, g.IsBelow base name := by
    rw [above.mem_all_iff_isBelow]
    simp only [List.mem_eraseDups]
  -- Whatever all chains share stands in the chain of the child, where only the root is.
  have shared : ∀ name, (∀ chain ∈ chains, name ∈ chain) → name = base := by
    intro name inAll
    obtain ⟨_, found, path, line, rfl⟩ := exists_of_mem_left above present'
    exact line.eq_of_mem_tail up root (inAll _ found)
  rw [commonAncestor_outcome universal computed]
  cases nearest : Hierarchy.nearestShared chains with
  | some ancestor =>
    have inAll := (Hierarchy.nearestShared_spec nearest).1
    cases shared ancestor inAll
    exact .inl ⟨below.mp inAll, rfl⟩
  | none =>
    have nonempty := above.nonempty (List.ne_nil_of_mem present')
    have unshared := (Hierarchy.nearestShared_eq_none_iff nonempty).mp nearest
    exact .inr ⟨fun all => unshared ⟨base, below.mpr all⟩, rfl⟩

/-- The dispatcher and the type of a field agree. Some union has the children of a type with a
deserializer as members, and every union that has them is typed as that type if all of its members
are below it, and as the universal type if not. -/
theorem commonAncestor_dispatched (acyclic : g.Acyclic) {annotations : String}
    (needs : (g.dispatch annotations).needsDeserializer base = true) (universal : String) :
    g.Unites (g.children base) ∧
    ∀ names : List String, (∀ child ∈ g.children base, child ∈ names) →
      ((∀ name ∈ names, g.IsBelow base name) →
        (g.hierarchy.commonAncestor universal names).outcome = .ok base) ∧
      ((¬ ∀ name ∈ names, g.IsBelow base name) →
        (g.hierarchy.commonAncestor universal names).outcome = .ok universal) ∧
      (g.isDeclared universal = false → ∀ other, g.isDeclared other = true →
        (g.hierarchy.commonAncestor universal names).outcome = .ok other → other = base) := by
  obtain ⟨_, ⟨parental, _, root⟩, united⟩ := needsDeserializer_iff.mp needs
  obtain ⟨child, listed⟩ := List.exists_mem_of_ne_nil _ parental
  have up : g.parent? child = some base := (mem_children_iff.mp listed).2
  refine ⟨united, fun names covers => ?_⟩
  rcases commonAncestor_of_child acyclic up root (covers child listed) universal with
    ⟨below, typed⟩ | ⟨apart, typed⟩
  · refine ⟨fun _ => typed, fun apart => absurd below apart, fun _ other _ typed' => ?_⟩
    cases typed.symm.trans typed'
    rfl
  · refine ⟨fun below => absurd below apart, fun _ => typed, ?_⟩
    intro foreign other declared typed'
    cases typed.symm.trans typed'
    simp [foreign] at declared

/-- A visitor is a pet, and a guest that may be a text as well is anything. -/
theorem commonAncestor_dispatched_garden :
    gardenGraph.Acyclic ∧ (gardenGraph.dispatch "gson").needsDeserializer "Pet" = true ∧
      (gardenGraph.hierarchy.commonAncestor "Object" ["Cat", "Dog"]).outcome = .ok "Pet" ∧
      (gardenGraph.hierarchy.commonAncestor "Object" ["Dog", "Cat", "string"]).outcome =
        .ok "Object" := by
  have acyclic : gardenGraph.Acyclic := by
    have resolved : ∃ m, ((Resolver.ofGraph Profile.java.primitive? {} gardenGraph).resolve
        "java").outcome = .ok m := ⟨_, by cbv⟩
    obtain ⟨m, returned⟩ := resolved
    exact acyclic_of_resolve returned
  have needs : (gardenGraph.dispatch "gson").needsDeserializer "Pet" = true := by cbv
  have children : gardenGraph.children "Pet" = ["Cat", "Dog"] := by cbv
  have pet : gardenGraph.Lineage "Pet" ["Pet"] := .root (by decide) (by decide)
  have cat : gardenGraph.IsBelow "Pet" "Cat" := ⟨_, .child (by decide) (by decide) pet, by simp⟩
  have dog : gardenGraph.IsBelow "Pet" "Dog" := ⟨_, .child (by decide) (by decide) pet, by simp⟩
  have text : ¬ gardenGraph.IsBelow "Pet" "string" := by
    rintro ⟨path, line, member⟩
    cases line.unique (.undeclared (by decide))
    cases member
  obtain ⟨_, typed⟩ := commonAncestor_dispatched acyclic needs "Object"
  rw [children] at typed
  exact ⟨acyclic, needs, (typed ["Cat", "Dog"] (by simp)).1 (by simp [cat, dog]),
    (typed ["Dog", "Cat", "string"] (by simp)).2.1 (by simp [text])⟩

end TypeGraph

end RamlTypes
