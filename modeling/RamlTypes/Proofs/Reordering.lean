import RamlTypes.Proofs.Agreement
import RamlTypes.Proofs.ResolutionFaults
import RamlTypes.Proofs.SortedNames

/-!
# The order of declarations

Types, resources and methods can be declared in any order. Lookups and chains do not see the order
of a graph, children are sorted, and usage is a matter of sets. So every type is resolved to the
same class, and only the places of the results in the model change.
-/
namespace RamlTypes

/-! ### Reordered models -/

/-- The models hold the same, each list in another order. -/
structure Model.Reordered (m m' : Model) : Prop where
  title : m.title = m'.title
  backend : m.backend = m'.backend
  classes : m.classes.Perm m'.classes
  parents : m.parents.find? = m'.parents.find?
  enums : m.enums.Perm m'.enums
  deserializers : m.deserializers.Perm m'.deserializers
  warnings : m.warnings.Perm m'.warnings

/-- Results in another order make the same model in another order. -/
theorem Resolver.Agrees.modelOf_reordered {r r' : Resolver} (same : r.Agrees r')
    (title : r.graph.title = r'.graph.title)
    (nodes : r.graph.nodes.entries.Perm r'.graph.nodes.entries) (backend : String)
    {resolutions resolutions' : List ClassResolution} (perm : resolutions.Perm resolutions') :
    (r.modelOf backend resolutions).Reordered (r'.modelOf backend resolutions') where
  title := title
  backend := rfl
  classes := perm.map _
  parents := funext (Table.find?_congr (nodes.map _))
  enums := perm.flatMap_right _
  deserializers := by
    rw [modelOf, modelOf, same.deserializer?]
    exact (perm.map _).filterMap _
  warnings := perm.flatMap_right _

/-! ### Reordered graphs -/

/-- The resources stand in another order, and so do their methods and the resources below them. -/
inductive Resource.Reordered : List Resource → List Resource → Prop where
  | nil : Reordered [] []
  | cons {uri : String} {methods methods' : List Method} {children children' : List Resource}
      {rest rest' : List Resource} (permuted : methods.Perm methods')
      (below : Reordered children children') (behind : Reordered rest rest') :
      Reordered (⟨uri, methods, children⟩ :: rest) (⟨uri, methods', children'⟩ :: rest')
  | swap (first second : Resource) (rest : List Resource) :
      Reordered (first :: second :: rest) (second :: first :: rest)
  | trans {left middle right : List Resource} (first : Reordered left middle)
      (second : Reordered middle right) : Reordered left right

theorem Resource.Reordered.symm {resources resources' : List Resource}
    (moved : Reordered resources resources') : Reordered resources' resources := by
  induction moved with
  | nil => exact .nil
  | cons permuted _ _ below behind => exact .cons permuted.symm below behind
  | swap first second rest => exact .swap second first rest
  | trans _ _ first second => exact second.trans first

theorem Resource.Reordered.methods_perm {resources resources' : List Resource}
    (moved : Reordered resources resources') :
    ((walkAll resources).flatMap (·.methods)).Perm ((walkAll resources').flatMap (·.methods)) := by
  induction moved with
  | nil => exact .refl _
  | cons permuted _ _ below behind =>
    simp only [walkAll, walk, List.flatMap_append, List.flatMap_cons]
    exact (permuted.append below).append behind
  | swap first second rest =>
    simp only [walkAll, List.flatMap_append, ← List.append_assoc]
    exact List.perm_append_comm.append_right _
  | trans _ _ first second => exact first.trans second

namespace TypeGraph

/-- The types stand in another order, and so do resources and methods at every level. -/
structure Reordered (g g' : TypeGraph) : Prop where
  title : g.title = g'.title
  nodes : g.nodes.entries.Perm g'.nodes.entries
  resources : Resource.Reordered g.resources g'.resources

variable {g g' : TypeGraph}

/-- A walk looks the parents up and passes names, nothing else. -/
theorem chainFrom_congr (same : g.node? = g'.node?) (passed : List String) (name : String) :
    g.chainFrom passed name = g'.chainFrom passed name := by
  have declared : g.isDeclared = g'.isDeclared := by
    funext other
    exact congrArg Option.isSome (congrFun same other)
  have up : g.parent? = g'.parent? := by
    funext other
    rw [parent?, parent?, same]
  fun_induction chainFrom g passed name with
  | case1 passed name here repeated =>
    rw [chainFrom, dif_pos (declared ▸ here), dif_pos repeated]
  | case2 passed name here fresh top =>
    rw [chainFrom, dif_pos (declared ▸ here), dif_neg fresh]
    simp [← up, top]
  | case3 passed name here fresh parent next ih =>
    rw [ih]
    conv_rhs => rw [chainFrom, dif_pos (declared ▸ here), dif_neg fresh]
    simp [← up, next]
  | case4 passed name absent => rw [chainFrom, dif_neg (declared ▸ absent)]

theorem revisits_congr (same : g.chain = g'.chain) (name : String) :
    g.Revisits name ↔ g'.Revisits name := by
  -- A walk comes back exactly where there is no chain.
  have revisits_iff : ∀ g : TypeGraph, g.Revisits name ↔ ∀ path, g.chain name ≠ .ok path := by
    intro g
    constructor
    · exact fun circle path walked => (chain_ok_iff.mp walked).not_revisits circle
    · intro stuck
      by_contra simple
      obtain ⟨path, line⟩ := exists_lineage simple
      exact stuck path (chain_ok_iff.mpr line)
  rw [revisits_iff, revisits_iff, same]

namespace Reordered

theorem symm (moved : g.Reordered g') : g'.Reordered g :=
  ⟨moved.title.symm, moved.nodes.symm, moved.resources.symm⟩

theorem node? (moved : g.Reordered g') : g.node? = g'.node? := by
  funext name
  exact Table.find?_congr moved.nodes name

theorem names_perm (moved : g.Reordered g') : g.names.Perm g'.names := moved.nodes.map Prod.fst

theorem children (moved : g.Reordered g') : g.children = g'.children := by
  funext name
  exact sortNames_congr ((moved.nodes.filter _).map Prod.fst)

theorem hierarchy (moved : g.Reordered g') : g.hierarchy.Agrees g'.hierarchy where
  node? := moved.node?
  chain := funext fun name => chainFrom_congr moved.node? [] name
  children := moved.children

/-! ### Usage -/

theorem allProperties_perm (moved : g.Reordered g') :
    g.allProperties.Perm g'.allProperties :=
  (moved.nodes.map Prod.snd).flatMap_right _

theorem usedNames_perm (moved : g.Reordered g') : g.usedNames.Perm g'.usedNames := by
  have payloads := moved.resources.methods_perm.flatMap_right (·.payloadTypes)
  exact (moved.allProperties_perm.flatMap_right _).append (payloads.flatMap_right _)

theorem unionMembers_perm (moved : g.Reordered g') : g.unionMembers.Perm g'.unionMembers :=
  moved.allProperties_perm.flatMap_right _

theorem usage (moved : g.Reordered g') : g.usage.Agrees g'.usage where
  used _ := moved.usedNames_perm.contains_eq
  covers _ := moved.unionMembers_perm.any_eq

/-! ### Resolutions -/

variable (primitive? : String → Option String) (config : Config)

theorem resolver (moved : g.Reordered g') :
    (Resolver.ofGraph primitive? config g).Agrees (Resolver.ofGraph primitive? config g') :=
  ⟨moved.hierarchy, moved.usage, rfl, rfl⟩

theorem resolvedNames_perm (moved : g.Reordered g') :
    ((Resolver.ofGraph primitive? config g).resolvedNames config.orderClasses).Perm
      ((Resolver.ofGraph primitive? config g').resolvedNames config.orderClasses) := by
  have left := moved.names_perm.filter fun name => !config.ignoreClasses.contains name
  exact (arrange_perm _ _).trans (left.trans (arrange_perm _ _).symm)

variable {primitive? config} {backend : String} {model : Model}

/-- Where a graph can be resolved, so can the reordered one, to the reordered model. -/
theorem resolve_returns (moved : g.Reordered g')
    (returned : ((Resolver.ofGraph primitive? config g).resolve backend).outcome = .ok model) :
    ∃ model', ((Resolver.ofGraph primitive? config g').resolve backend).outcome = .ok model' ∧
      model.Reordered model' := by
  have same := moved.resolver primitive? config
  obtain ⟨⟨paths, walked⟩, resolutions, resolved, rfl⟩ := resolve_ok_iff.mp returned
  have chain : g.chain = g'.chain := moved.hierarchy.chain
  rw [chain] at walked
  rw [same.resolveClass] at resolved
  obtain ⟨paths', walked', _⟩ := mapM_perm moved.names_perm walked
  obtain ⟨resolutions', resolved', perm⟩ :=
    mapM_perm (moved.resolvedNames_perm primitive? config) resolved
  refine ⟨_, resolve_ok_iff.mpr ⟨⟨paths', walked'⟩, resolutions', resolved', rfl⟩, ?_⟩
  exact same.modelOf_reordered moved.title moved.nodes backend perm

theorem revisits_iff (moved : g.Reordered g') :
    (∃ name ∈ g.names, g.Revisits name) ↔ ∃ name ∈ g'.names, g'.Revisits name := by
  simp only [moved.names_perm.mem_iff, revisits_congr moved.hierarchy.chain]

end Reordered

/-- The order of types, resources and methods does not change how a resolution ends, and where it
returns, it changes the places in the model only. So where types are stored under their own names,
each name has the same class. -/
theorem resolve_reordered (moved : g.Reordered g') (primitive? : String → Option String)
    (config : Config) (backend : String) :
    ((∃ model, ((Resolver.ofGraph primitive? config g).resolve backend).outcome = .ok model) ↔
      ∃ model, ((Resolver.ofGraph primitive? config g').resolve backend).outcome = .ok model) ∧
    ((∃ cycle, ((Resolver.ofGraph primitive? config g).resolve backend).outcome =
        .error (.cycle cycle)) ↔
      ∃ cycle, ((Resolver.ofGraph primitive? config g').resolve backend).outcome =
        .error (.cycle cycle)) ∧
    ∀ model model',
      ((Resolver.ofGraph primitive? config g).resolve backend).outcome = .ok model →
      ((Resolver.ofGraph primitive? config g').resolve backend).outcome = .ok model' →
      model.Reordered model' ∧ (g.Keyed → ∀ name, model.class? name = model'.class? name) := by
  refine ⟨⟨?_, ?_⟩, ?_, ?_⟩
  · rintro ⟨model, returned⟩
    obtain ⟨model', returned', _⟩ := moved.resolve_returns returned
    exact ⟨model', returned'⟩
  · rintro ⟨model', returned'⟩
    obtain ⟨model, returned, _⟩ := moved.symm.resolve_returns returned'
    exact ⟨model, returned⟩
  · rw [resolve_cycle_iff, resolve_cycle_iff]
    exact moved.revisits_iff
  · intro model model' returned returned'
    obtain ⟨model'', returned'', same⟩ := moved.resolve_returns returned
    cases returned'.symm.trans returned''
    refine ⟨same, fun keyed name => ?_⟩
    -- The names of the classes are those of the types, so no class hides another.
    have nodup : (model.classes.map (·.name)).Nodup := by
      rw [resolve_names keyed returned]
      exact nodup_resolvedNames
    exact congrFun (Model.class?_congr nodup same.classes) name

/-! ### Pet shops -/

/-- Pets are listed and bought below one resource, and there is another one. -/
def shopGraph : TypeGraph where
  title := petGraph.title
  nodes := petGraph.nodes
  resources := [
    ⟨"/pets", [⟨"get", "", "", ["Pet[]"]⟩, ⟨"post", "", "Dog | Cat", []⟩], [⟨"/food", [], []⟩]⟩,
    ⟨"/hours", [], []⟩]

/-- The same with the most general pet first, and each pair of resources and methods swapped. -/
def shopGraph' : TypeGraph where
  title := petGraph.title
  nodes := ⟨petGraph.nodes.entries.reverse, by simp [petGraph]⟩
  resources := [
    ⟨"/hours", [], []⟩,
    ⟨"/pets", [⟨"post", "", "Dog | Cat", []⟩, ⟨"get", "", "", ["Pet[]"]⟩], [⟨"/food", [], []⟩]⟩]

theorem resolve_reordered_shops :
    ∃ model model',
      ((Resolver.ofGraph Profile.java.primitive? {} shopGraph).resolve "java").outcome =
        .ok model ∧
      ((Resolver.ofGraph Profile.java.primitive? {} shopGraph').resolve "java").outcome =
        .ok model' ∧
      model.Reordered model' ∧ ∀ name, model.class? name = model'.class? name := by
  have moved : shopGraph.Reordered shopGraph' := by
    refine ⟨rfl, (List.reverse_perm _).symm, ?_⟩
    have food : Resource.Reordered [⟨"/food", [], []⟩] [⟨"/food", [], []⟩] :=
      .cons (.refl _) .nil .nil
    exact .trans (.swap _ _ _) (.cons (.refl _) .nil (.cons (.swap _ _ _) food .nil))
  have keyed : shopGraph.Keyed := ⟨petGraph_isBuilt.wellFormed.keyed.node,
    petGraph_isBuilt.wellFormed.keyed.property⟩
  have resolved : ∃ model model',
      ((Resolver.ofGraph Profile.java.primitive? {} shopGraph).resolve "java").outcome =
        .ok model ∧
      ((Resolver.ofGraph Profile.java.primitive? {} shopGraph').resolve "java").outcome =
        .ok model' := ⟨_, _, by cbv, by cbv⟩
  obtain ⟨model, model', returned, returned'⟩ := resolved
  have same := (resolve_reordered moved Profile.java.primitive? {} "java").2.2
    model model' returned returned'
  exact ⟨model, model', returned, returned', same.1, same.2 keyed⟩

end TypeGraph

end RamlTypes
