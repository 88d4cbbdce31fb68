import RamlTypes.Proofs.EnumMembers
import RamlTypes.Proofs.MappingFailures
import RamlTypes.Proofs.ModelContents

/-!
# How a resolution ends

A cycle anywhere ends a resolution, whatever else is wrong with the graph. Without one, the only
faults that are left are literals on a type that is resolved or on one of its effective properties
that are not ignored: one that an enum cannot have, or a number that cannot be written. Mappings
that fail become warnings, and no name is looked up that is not declared, so in every other case
there is a model.
-/
namespace RamlTypes

/-! ### Literals of enums -/

/-- An enum, if there is one, has a literal that is refused. -/
def HasRefused (literals : Option (List Value)) : Prop :=
  ∃ values, literals = some values ∧ ∃ value ∈ values, value.isRefused = true

/-- An enum, if there is one, has a literal that cannot be written. -/
def HasLong (literals : Option (List Value)) : Prop :=
  ∃ values, literals = some values ∧ ∃ value ∈ values, value.isPrintable = false

theorem enumOf_rejectedBy (owner propertyName : String) (literals : Option (List Value))
    (type : TypeExpr) :
    RejectedBy .ofRead (HasRefused literals) (HasLong literals)
      (Resolver.enumOf owner propertyName literals type).outcome := by
  cases literals with
  | none => exact .of_returns rfl (by simp [HasRefused]) (by simp [HasLong])
  | some values =>
    rw [Resolver.enumOf, Logged.outcome_map]
    exact ((EnumDef.ofLiterals_rejectedBy owner propertyName type.raw values).map some).congr
      (by simp [HasRefused]) (by simp [HasLong])

/-! ### Resolving fields and classes -/

theorem MapsOrFails.dropped_returns {x : Logged TargetType} (maps : MapsOrFails x.outcome)
    (owner propertyName : String) :
    ∃ result, (x.mappedOrDropped owner propertyName).outcome = .ok result := by
  rw [mappedOrDropped_outcome]
  rcases maps with ⟨target, returned⟩ | ⟨failure, failed⟩
  · exact ⟨_, by rw [returned]⟩
  · exact ⟨_, by rw [failed]⟩

namespace TypeGraph

variable {g : TypeGraph} (primitive? : String → Option String) (config : Config)

theorem fieldWith_rejectedBy (acyclic : g.Acyclic) (owner : String) (p : Property)
    {target : TargetType} (checked : target.checkReference = .ok ()) :
    RejectedBy .ofRead (HasRefused p.literals) (HasLong p.literals)
      ((Resolver.ofGraph primitive? config g).fieldWith owner p target).outcome := by
  obtain ⟨kept, computed⟩ := isMember_returns acyclic owner p
  have placed : (Resolver.ofGraph primitive? config g).hierarchy.isMember owner p = .ok kept :=
    computed
  rw [Resolver.outcome_fieldWith]
  -- Once the enum is there, nothing that is left can fail.
  refine (enumOf_rejectedBy owner p.name p.literals p.type).bind_returns fun enum => ?_
  rw [placed, checked]
  exact ⟨_, rfl⟩

theorem resolveField_rejectedBy (acyclic : g.Acyclic) (owner : String) (p : Property) :
    RejectedBy .ofRead (HasRefused p.literals) (HasLong p.literals)
      ((Resolver.ofGraph primitive? config g).resolveField owner p).outcome := by
  have maps : MapsOrFails
      ((Resolver.ofGraph primitive? config g).mapper.mapProperty owner p).outcome :=
    TypeMapper.mapProperty_mapsOrFails
      (acyclic.typesUnions primitive? config.universalBaseType) owner p
  rw [Resolver.resolveField, Logged.outcome_bind, mappedOrDropped_outcome]
  rcases maps with ⟨target, returned⟩ | ⟨failure, failed⟩
  · have field := fieldWith_rejectedBy primitive? config acyclic owner p
      (TypeMapper.checkReference_of_mapProperty returned)
    simpa [returned] using field.map Except.ok
  · -- The type of an enum is its own, so only a property without literals fails to be mapped.
    have plain : p.literals = none := by
      by_contra literals
      have isEnum : p.isEnum = true := by
        simpa [Property.isEnum, Option.isSome_iff_ne_none] using literals
      simp [TypeMapper.mapProperty, isEnum] at failed
    rw [failed]
    exact .of_returns rfl (by simp [HasRefused, plain]) (by simp [HasLong, plain])

theorem resolveAlias_returns (acyclic : g.Acyclic) (node : TypeNode) :
    ∃ definition,
      ((Resolver.ofGraph primitive? config g).resolveAlias node).outcome = .ok definition := by
  unfold Resolver.resolveAlias
  split
  · have ends := TypeMapper.mapType_endsBy
      (acyclic.typesUnions primitive? config.universalBaseType) node.type
    obtain ⟨result, returned⟩ := ends.mapsOrFails.dropped_returns node.name ""
    rw [Logged.outcome_map]
    exact ⟨some result, congrArg (some <$> ·) returned⟩
  · exact ⟨none, rfl⟩

/-- The type has such literals, or an effective property that is not ignored has. -/
def HasLiterals (g : TypeGraph) (such : Option (List Value) → Prop) (ignored : List String)
    (name : String) : Prop :=
  (∃ node, g.node? name = some node ∧ such node.literals) ∨
    ∃ key p, key ∉ ignored ∧ g.IsEffective name key p ∧ such p.literals

/-- A type that is resolved has such literals. -/
def ResolvesLiterals (g : TypeGraph) (such : Option (List Value) → Prop) (config : Config) : Prop :=
  ∃ name ∈ g.names, name ∉ config.ignoreClasses ∧
    g.HasLiterals such config.globalIgnoreFields name

/-- A type can be resolved unless it or one of its properties has a literal that is refused or
cannot be written. -/
theorem resolveNode_rejectedBy (acyclic : g.Acyclic) {node : TypeNode} {path : List String}
    {properties : List Property} (line : g.Lineage node.name path)
    (visible : (Resolver.ofGraph primitive? config g).visibleProperties path = .ok properties) :
    RejectedBy .ofRead (HasRefused node.literals ∨ ∃ p ∈ properties, HasRefused p.literals)
      (HasLong node.literals ∨ ∃ p ∈ properties, HasLong p.literals)
      ((Resolver.ofGraph primitive? config g).resolveNode node).outcome := by
  obtain ⟨definition, aliased⟩ := resolveAlias_returns primitive? config acyclic node
  have walked : (Resolver.ofGraph primitive? config g).hierarchy.chain node.name = .ok path :=
    chain_ok_iff.mpr line
  have enum := enumOf_rejectedBy node.name "" node.literals node.type
  have fields := RejectedBy.mapM fun p (_ : p ∈ properties) =>
    resolveField_rejectedBy primitive? config acyclic node.name p
  -- Two steps can fail, the enum of the type and its fields, and each only for its literals.
  rw [Resolver.outcome_resolveNode, walked, ok_bind]
  refine enum.bind fun _ _ => ?_
  rw [aliased, ok_bind, visible, ok_bind]
  exact fields.map _

theorem resolveClass_rejectedBy (sound : g.WellFormed) (acyclic : g.Acyclic) {name : String}
    (declared : g.isDeclared name = true) :
    RejectedBy .ofRead (g.HasLiterals HasRefused config.globalIgnoreFields name)
      (g.HasLiterals HasLong config.globalIgnoreFields name)
      ((Resolver.ofGraph primitive? config g).resolveClass name).outcome := by
  obtain ⟨node, found⟩ := Option.isSome_iff_exists.mp declared
  have found' : g.node? name = some node := found
  have named : node.name = name := (sound.of_node? found').named
  obtain ⟨path, line⟩ := exists_lineage (acyclic name)
  obtain ⟨properties, visible, member⟩ := line.visibleProperties_returns primitive? config
  have ends := resolveNode_rejectedBy primitive? config acyclic (named.symm ▸ line) visible
  have same (such : Option (List Value) → Prop) :
      (such node.literals ∨ ∃ p ∈ properties, such p.literals) ↔
        g.HasLiterals such config.globalIgnoreFields name := by
    simp only [HasLiterals, found', Option.some.injEq, exists_eq_left', member]
    refine or_congr_right ⟨?_, ?_⟩
    · rintro ⟨p, ⟨key, shown, effective⟩, has⟩
      exact ⟨key, p, shown, effective, has⟩
    · rintro ⟨key, p, shown, effective, has⟩
      exact ⟨p, ⟨key, shown, effective⟩, has⟩
  rw [resolveClass_eq found']
  exact ends.congr (same HasRefused) (same HasLong)

/-! ### Resolving graphs -/

theorem resolve_rejectedBy (sound : g.WellFormed) (acyclic : g.Acyclic) (backend : String) :
    RejectedBy .ofRead (g.ResolvesLiterals HasRefused config) (g.ResolvesLiterals HasLong config)
      ((Resolver.ofGraph primitive? config g).resolve backend).outcome := by
  -- Walking all chains first returns, and leaves no trace but a fault.
  have walks : ∀ name ∈ g.names, ∃ path, g.chain name = .ok path := by
    intro name _
    obtain ⟨path, line⟩ := exists_lineage (acyclic name)
    exact ⟨path, chain_ok_iff.mpr line⟩
  obtain ⟨paths, walked⟩ := mapM_returns walks
  have classes := RejectedBy.mapM fun name
      (member : name ∈ (Resolver.ofGraph primitive? config g).resolvedNames config.orderClasses) =>
    resolveClass_rejectedBy primitive? config sound acyclic
      ((Table.contains_iff g.nodes name).mpr (mem_resolvedNames.mp member).1)
  rw [Resolver.outcome_resolve]
  change RejectedBy _ _ _ (g.names.mapM g.chain >>= _)
  rw [walked, ok_bind]
  refine (classes.map _).congr ?_ ?_ <;> simp only [mem_resolvedNames, and_assoc, ResolvesLiterals]

/-- A cycle ends a resolution before any type is resolved. -/
theorem resolve_cycle {name : String} (backend : String) (listed : name ∈ g.names)
    (circle : g.Revisits name) :
    ∃ cycle, ((Resolver.ofGraph primitive? config g).resolve backend).outcome =
      .error (.cycle cycle) := by
  rw [Resolver.outcome_resolve]
  change ∃ cycle, (g.names.mapM g.chain >>= _) = _
  -- The chain of the name is among those that are walked, so the traversal cannot return.
  cases walked : g.names.mapM g.chain with
  | ok paths =>
    obtain ⟨path, _, returned⟩ := result_of_mem walked listed
    exact absurd circle (chain_ok_iff.mp returned).not_revisits
  | error fault =>
    obtain ⟨_, _, failed⟩ := mapM_error walked
    obtain ⟨⟨cycle, rfl⟩, _⟩ := chain_error failed
    exact ⟨cycle, rfl⟩

/-- Where no walk comes back, resolving a type does not end with a cycle. -/
theorem resolveClass_ne_cycle (acyclic : g.Acyclic) {name : String}
    (declared : g.isDeclared name = true) (cycle : List String) :
    ((Resolver.ofGraph primitive? config g).resolveClass name).outcome ≠ .error (.cycle cycle) := by
  obtain ⟨node, found⟩ := Option.isSome_iff_exists.mp declared
  obtain ⟨path, line⟩ := exists_lineage (acyclic node.name)
  obtain ⟨properties, visible, _⟩ := line.visibleProperties_returns primitive? config
  rw [resolveClass_eq found]
  intro failed
  have ends := resolveNode_rejectedBy primitive? config acyclic line visible
  rcases ends.fault_of_error failed with ⟨_, _, same⟩ | ⟨_, same⟩ <;> cases same

/-- A cycle is the fault exactly when some walk from a declared name comes back. -/
theorem resolve_cycle_iff (backend : String) :
    (∃ cycle, ((Resolver.ofGraph primitive? config g).resolve backend).outcome =
      .error (.cycle cycle)) ↔ ∃ name ∈ g.names, g.Revisits name := by
  refine ⟨?_, fun ⟨_, listed, circle⟩ => resolve_cycle primitive? config backend listed circle⟩
  rintro ⟨cycle, failed⟩
  by_contra simple
  have acyclic : g.Acyclic :=
    acyclic_of_names fun name listed circle => simple ⟨name, listed, circle⟩
  rw [Resolver.outcome_resolve] at failed
  change (g.names.mapM g.chain >>= _) = _ at failed
  cases walked : g.names.mapM g.chain with
  | error fault =>
    obtain ⟨name, _, stuck⟩ := mapM_error walked
    exact acyclic name (chain_error stuck).2
  | ok paths =>
    have order : (Resolver.ofGraph primitive? config g).options.orderClasses.mapError
        Fault.misfit = .ok config.orderClasses := rfl
    rw [walked, ok_bind, order, ok_bind] at failed
    -- All chains are there, so only a type could have brought the cycle up.
    cases resolved : ((Resolver.ofGraph primitive? config g).resolvedNames
        config.orderClasses).mapM fun name =>
          ((Resolver.ofGraph primitive? config g).resolveClass name).outcome with
    | ok resolutions =>
      rw [resolved] at failed
      cases failed
    | error fault =>
      rw [resolved] at failed
      cases failed
      obtain ⟨name, listed, stuck⟩ := mapM_error resolved
      have declared := (Table.contains_iff g.nodes name).mpr (mem_resolvedNames.mp listed).1
      exact resolveClass_ne_cycle primitive? config acyclic declared cycle stuck

/-- How a resolution ends. A cycle counts whatever the configuration is and whatever else is wrong;
literals count on types that are resolved and properties that are in effect on them. -/
theorem resolve_outcome (built : g.IsBuilt) (backend : String) :
    ((∃ cycle, ((Resolver.ofGraph primitive? config g).resolve backend).outcome =
        .error (.cycle cycle)) ↔ ∃ name ∈ g.names, g.Revisits name) ∧
    ((¬ ∃ name ∈ g.names, g.Revisits name) →
      ((∃ model, ((Resolver.ofGraph primitive? config g).resolve backend).outcome = .ok model) ↔
        ¬ g.ResolvesLiterals HasRefused config ∧ ¬ g.ResolvesLiterals HasLong config) ∧
      (¬ g.ResolvesLiterals HasLong config →
        ((∃ error, ((Resolver.ofGraph primitive? config g).resolve backend).outcome =
          .error (.schema error)) ↔ g.ResolvesLiterals HasRefused config))) ∧
    (∀ fault, ((Resolver.ofGraph primitive? config g).resolve backend).outcome = .error fault →
      (∃ cycle, fault = .cycle cycle) ∨
      (g.ResolvesLiterals HasRefused config ∧ ∃ error, fault = .schema error) ∨
      (g.ResolvesLiterals HasLong config ∧ fault = .longNumber)) := by
  refine ⟨resolve_cycle_iff primitive? config backend, ?_⟩
  by_cases circular : ∃ name ∈ g.names, g.Revisits name
  · obtain ⟨cycle, failed⟩ := (resolve_cycle_iff primitive? config backend).mpr circular
    refine ⟨fun simple => absurd circular simple, fun fault failed' => ?_⟩
    cases failed.symm.trans failed'
    exact .inl ⟨cycle, rfl⟩
  -- Without a cycle among the declared names there is none at all.
  · have acyclic : g.Acyclic :=
      acyclic_of_names fun name listed circle => circular ⟨name, listed, circle⟩
    have ends := resolve_rejectedBy primitive? config built.wellFormed acyclic backend
    exact ⟨fun _ => ⟨ends.returns_iff, ends.rejected_iff⟩,
      fun fault failed => .inr (ends.fault_of_error failed)⟩

/-! ### Orders -/

section Orders

variable {literal : Value} {such : Option (List Value) → Prop} {ignored : List String}

theorem hasLiterals_order :
    (orderGraph literal).HasLiterals such ignored "Order" ↔
      such none ∨ "kind" ∉ ignored ∧ such (some [literal]) := by
  have node : (orderGraph literal).node? "Order" =
      some (objectNode "Order" none ⟨[("kind", orderKind (some [literal]))], by simp⟩) := rfl
  simp [HasLiterals, node, isEffective_order, objectNode, orderKind, and_assoc]

/-- The kind of a purchase is its own, so the literals of the kind above do not count. -/
theorem hasLiterals_purchase :
    (orderGraph literal).HasLiterals such ignored "Purchase" ↔
      such none ∨ "kind" ∉ ignored ∧ such none := by
  have node : (orderGraph literal).node? "Purchase" =
      some (objectNode "Purchase" (some "Order") ⟨[("kind", orderKind none)], by simp⟩) := rfl
  simp [HasLiterals, node, isEffective_purchase, objectNode, orderKind, and_assoc]

theorem resolvesLiterals_orderGraph {config : Config} (never : ¬ such none) :
    (orderGraph literal).ResolvesLiterals such config ↔
      "Order" ∉ config.ignoreClasses ∧ "kind" ∉ config.globalIgnoreFields ∧
        such (some [literal]) := by
  simp [ResolvesLiterals, mem_orderGraph_names, hasLiterals_order, hasLiterals_purchase, never]

end Orders

theorem not_hasRefused_none : ¬ HasRefused none := by simp [HasRefused]

theorem not_hasLong_none : ¬ HasLong none := by simp [HasLong]

theorem orderGraph_not_revisits (literal : Value) :
    ¬ ∃ name ∈ (orderGraph literal).names, (orderGraph literal).Revisits name :=
  fun ⟨name, _, circle⟩ => orderGraph_acyclic literal name circle

/-- A null among the kinds of an order ends a resolution, unless orders are left out. -/
theorem resolve_outcome_orders :
    (∃ error, ((Resolver.ofGraph Profile.java.primitive? {}
      (orderGraph (.scalar .null))).resolve "java").outcome = .error (.schema error)) ∧
    ∃ model, ((Resolver.ofGraph Profile.java.primitive? { ignoreClasses := ["Order"] }
      (orderGraph (.scalar .null))).resolve "java").outcome = .ok model := by
  have built := orderGraph_isBuilt (.scalar .null)
  have simple := orderGraph_not_revisits (.scalar .null)
  constructor
  · obtain ⟨_, rejected⟩ := (resolve_outcome Profile.java.primitive? {} built "java").2.1 simple
    refine (rejected ?_).mpr ?_
    · simp [resolvesLiterals_orderGraph not_hasLong_none, HasLong, Value.isPrintable,
        Scalar.isPrintable]
    · simp [resolvesLiterals_orderGraph not_hasRefused_none, HasRefused, Value.isRefused]
  · obtain ⟨returns, _⟩ := (resolve_outcome Profile.java.primitive?
      { ignoreClasses := ["Order"] } built "java").2.1 simple
    exact returns.mpr ⟨by simp [resolvesLiterals_orderGraph not_hasRefused_none],
      by simp [resolvesLiterals_orderGraph not_hasLong_none]⟩

/-- A null, a list or a mapping. -/
def isNullOrNested : Value → Bool
  | .scalar .null | .list _ | .map _ => true
  | _ => false

/-- A date is no literal of an enum either: without a null, a list or a mapping among the literals
a resolution can still end with an error. -/
theorem resolve_orders_dated :
    ∃ date : Value, (orderGraph date).IsBuilt ∧
      (¬ ∃ name ∈ (orderGraph date).names, (orderGraph date).Revisits name) ∧
      ¬ (orderGraph date).ResolvesLiterals
        (fun literals => ∃ values, literals = some values ∧
          ∃ value ∈ values, isNullOrNested value = true) {} ∧
      ∃ error, ((Resolver.ofGraph Profile.java.primitive? {} (orderGraph date)).resolve
        "java").outcome = .error (.schema error) := by
  refine ⟨.scalar (.timestamp ⟨2020, 1, 1, none⟩), orderGraph_isBuilt _,
    orderGraph_not_revisits _, ?_, ?_⟩
  · rw [resolvesLiterals_orderGraph (by simp)]
    simp [isNullOrNested]
  · have ends := resolve_rejectedBy Profile.java.primitive? {} (orderGraph_isBuilt
      (.scalar (.timestamp ⟨2020, 1, 1, none⟩))).wellFormed (orderGraph_acyclic _) "java"
    refine (ends.rejected_iff ?_).mpr ?_
    · simp [resolvesLiterals_orderGraph not_hasLong_none, HasLong, Value.isPrintable,
        Scalar.isPrintable]
    · simp [resolvesLiterals_orderGraph not_hasRefused_none, HasRefused, Value.isRefused]

end TypeGraph

end RamlTypes
