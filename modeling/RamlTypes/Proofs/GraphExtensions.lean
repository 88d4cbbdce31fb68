import RamlTypes.Proofs.CommonAncestors
import RamlTypes.Proofs.MappedTypes
import RamlTypes.Proofs.ModelContents

/-!
# Graphs with one more type

A resolution looks types up by name: parents, the members of unions, and the type that a field
refers to. All these names stand in the type expressions of the graph, or are ancestors of such
names, or are the universal type. So a type under a name that is none of them is never found when
another type is resolved, and what comes out is the same; only the new type knows its parent.
-/
namespace RamlTypes

/-- The name is the text or the name of some part of the expression. -/
def TypeExpr.Mentions (expr : TypeExpr) (name : String) : Prop :=
  ∃ part : TypeExpr, part.IsPart expr ∧ (part.raw = name ∨ part.memberName = name)

theorem TypeExpr.mentions_iff (expr : TypeExpr) (name : String) :
    expr.Mentions name ↔ expr.raw = name ∨ expr.memberName = name ∨
      ∃ operand ∈ expr.operands, operand.Mentions name := by
  constructor
  · rintro ⟨part, inside, named⟩
    cases inside with
    | self => exact named.imp_right .inl
    | within listed inside => exact .inr (.inr ⟨_, listed, part, inside, named⟩)
  · rintro (same | same | ⟨operand, listed, part, inside, named⟩)
    · exact ⟨expr, .self, .inl same⟩
    · exact ⟨expr, .self, .inr same⟩
    · exact ⟨part, .within listed inside, named⟩

theorem TypeExpr.Mentions.of_operand {whole operand : TypeExpr} {name : String}
    (listed : operand ∈ whole.operands) (mentions : operand.Mentions name) :
    whole.Mentions name :=
  (mentions_iff whole name).mpr (.inr (.inr ⟨operand, listed, mentions⟩))

/-- The class has another place among the types, and is the same otherwise. -/
def ResolvedClass.KeptAs (c c' : ResolvedClass) : Prop :=
  c' = { c with
    children := c'.children
    isAbstract := c'.isAbstract
    hasChildren := c'.hasChildren
    deserializerTarget := c'.deserializerTarget }

/-- The class is kept, with its enums and warnings. -/
structure ClassResolution.KeptAs (c c' : ClassResolution) : Prop where
  record : c.record.KeptAs c'.record
  enums : c'.enums = c.enums
  warnings : c'.warnings = c.warnings

namespace TypeGraph

/-- The second graph has one more type behind the others, under a name that no type expression of
the first graph mentions. -/
structure GrowsBy (g : TypeGraph) (added : String) (g' : TypeGraph) : Prop where
  nodes : ∃ node, g'.nodes.entries = g.nodes.entries ++ [(added, node)]
  unmentioned : ∀ type, g.HasType type → ¬ type.Mentions added

variable {g g' : TypeGraph} {added name : String} {path : List String}

namespace GrowsBy

section Lookups

variable (grown : g.GrowsBy added g')

include grown

theorem names_eq : g'.names = g.names ++ [added] := by
  obtain ⟨node, entries⟩ := grown.nodes
  simp [names, Table.keys, entries]

theorem fresh : added ∉ g.names := by
  have nodup : g'.names.Nodup := g'.nodes.nodup
  rw [grown.names_eq, List.nodup_append] at nodup
  exact fun listed => nodup.2.2 added listed added (by simp) rfl

theorem ne_of_declared (declared : g.isDeclared name = true) : name ≠ added := by
  rintro rfl
  exact grown.fresh ((Table.contains_iff _ _).mp declared)

/-! ### Lookups -/

theorem node?_eq (other : name ≠ added) : g'.node? name = g.node? name := by
  obtain ⟨node, entries⟩ := grown.nodes
  apply Option.ext
  intro found
  rw [node?_eq_some_iff, node?_eq_some_iff, entries]
  simp [other]

theorem isDeclared_eq (other : name ≠ added) : g'.isDeclared name = g.isDeclared name :=
  congrArg Option.isSome (grown.node?_eq other)

theorem parent?_eq (other : name ≠ added) : g'.parent? name = g.parent? name := by
  rw [parent?, parent?, grown.node?_eq other]

/-- The lineage of another type does not lead to the new one, as no type has it for a parent. -/
theorem lineage (sound : g.WellFormed) (line : g.Lineage name path) (other : name ≠ added) :
    g'.Lineage name path := by
  -- On the lineage. Each parent is declared already, so the walk never comes to the new name.
  induction line with
  | undeclared absent => exact .undeclared ((grown.isDeclared_eq other).trans absent)
  | root declared top =>
    exact .root ((grown.isDeclared_eq other).trans declared) ((grown.parent?_eq other).trans top)
  | child declared up _ ih =>
    exact .child ((grown.isDeclared_eq other).trans declared) ((grown.parent?_eq other).trans up)
      (ih (grown.ne_of_declared (sound.parent_declared up)))

theorem chain_eq (sound : g.WellFormed) (acyclic : g.Acyclic) (other : name ≠ added) :
    g'.chain name = g.chain name := by
  obtain ⟨path, line⟩ := exists_lineage (acyclic name)
  rw [chain_ok_iff.mpr line, chain_ok_iff.mpr (grown.lineage sound line other)]

/-! ### Properties -/

theorem writeProperties_eq {names : List String} (others : ∀ name ∈ names, name ≠ added)
    (written : Table String Property) :
    g'.writeProperties written names = g.writeProperties written names := by
  induction names generalizing written with
  | nil => rfl
  | cons name rest ih =>
    rw [writeProperties, writeProperties, grown.node?_eq (others name List.mem_cons_self)]
    cases g.node? name with
    | none => rfl
    | some node => exact ih (fun name' listed => others name' (List.mem_cons_of_mem _ listed)) _

theorem flatten_eq (line : g.Lineage name path) : g'.flatten path = g.flatten path := by
  refine grown.writeProperties_eq (fun passed listed => ?_) .empty
  exact grown.ne_of_declared (line.declared passed (List.mem_reverse.mp listed))

theorem effectiveProperties_eq (sound : g.WellFormed) (acyclic : g.Acyclic)
    (other : name ≠ added) :
    g'.hierarchy.effectiveProperties name = g.hierarchy.effectiveProperties name := by
  obtain ⟨path, line⟩ := exists_lineage (acyclic name)
  rw [(grown.lineage sound line other).effectiveProperties_eq, line.effectiveProperties_eq,
    grown.flatten_eq line]

theorem isMember_eq (sound : g.WellFormed) (acyclic : g.Acyclic) (other : name ≠ added)
    (p : Property) : g'.hierarchy.isMember name p = g.hierarchy.isMember name p := by
  rw [Hierarchy.isMember, Hierarchy.isMember]
  simp only [hierarchy, grown.parent?_eq other]
  cases up : g.parent? name with
  | none => rfl
  | some parent =>
    -- The properties of the parent decide, and the parent was there before.
    have above := grown.ne_of_declared (sound.parent_declared up)
    have same := grown.effectiveProperties_eq sound acyclic above
    simp only [hierarchy] at same
    simp only [same]

/-! ### Types -/

theorem commonAncestor_eq (sound : g.WellFormed) (acyclic : g.Acyclic) (universal : String)
    {members : List String} (apart : added ∉ members) :
    (g'.hierarchy.commonAncestor universal members).outcome =
      (g.hierarchy.commonAncestor universal members).outcome := by
  obtain ⟨chains, computed, _⟩ := exists_ancestorsOf acyclic members.eraseDups
  have computed' : members.eraseDups.mapM g'.hierarchy.memberAncestors = .ok chains := by
    rw [← computed]
    -- The walks that start from the members are all that the search looks at.
    refine mapM_congr fun member listed => ?_
    have other : member ≠ added := by
      rintro rfl
      exact apart (List.mem_eraseDups.mp listed)
    obtain ⟨path, line⟩ := exists_lineage (acyclic member)
    rw [memberAncestors_eq line, memberAncestors_eq (grown.lineage sound line other)]
  rw [commonAncestor_outcome universal computed, commonAncestor_outcome universal computed']

end Lookups

section Mapping

variable {primitive? : String → Option String} {universal : String}

mutual

/-- Only unions ask for types, and only for the names of their members. -/
theorem mapType_eq (grown : g.GrowsBy added g') (sound : g.WellFormed) (acyclic : g.Acyclic) :
    ∀ type : TypeExpr, ¬ type.Mentions added →
      ((TypeMapper.mk primitive? g'.hierarchy universal).mapType type).outcome =
        ((TypeMapper.mk primitive? g.hierarchy universal).mapType type).outcome
  | .named raw name qualifier, _ => rfl
  | .array raw dimensions element, apart => by
    have inner : ¬ element.Mentions added :=
      fun mentions => apart (mentions.of_operand (List.mem_singleton.mpr rfl))
    rw [TypeMapper.mapType, TypeMapper.mapType]
    dsimp only
    split
    · rfl
    · split
      · rfl
      · rw [Logged.outcome_bind, Logged.outcome_bind, mapType_eq grown sound acyclic element inner]
  | .map raw value, _ => rfl
  | .union raw members, apart => by
    have inner : ∀ member ∈ members, ¬ member.Mentions added :=
      fun member listed mentions => apart (mentions.of_operand listed)
    have others : added ∉ members.map (·.memberName) := by
      intro listed
      obtain ⟨member, listed', named⟩ := List.mem_map.mp listed
      exact inner member listed' ⟨member, .self, .inr named⟩
    rw [TypeMapper.mapType, TypeMapper.mapType]
    dsimp only
    split
    · rfl
    · simp only [Logged.outcome_bind, mapTypes_eq grown sound acyclic members inner,
        grown.commonAncestor_eq sound acyclic universal others]

theorem mapTypes_eq (grown : g.GrowsBy added g') (sound : g.WellFormed) (acyclic : g.Acyclic) :
    ∀ types : List TypeExpr, (∀ type ∈ types, ¬ type.Mentions added) →
      ((TypeMapper.mk primitive? g'.hierarchy universal).mapTypes types).outcome =
        ((TypeMapper.mk primitive? g.hierarchy universal).mapTypes types).outcome
  | [], _ => rfl
  | type :: rest, apart => by
    rw [TypeMapper.mapTypes, TypeMapper.mapTypes, Logged.outcome_bind, Logged.outcome_bind,
      mapType_eq grown sound acyclic type (apart type List.mem_cons_self)]
    simp only [Logged.outcome_bind, mapTypes_eq grown sound acyclic rest
      fun other listed => apart other (List.mem_cons_of_mem _ listed)]

end

end Mapping

/-- A field of a type that is mapped refers to another type than the new one. -/
theorem referenced?_ne (grown : g.GrowsBy added g') {primitive? : String → Option String}
    {universal : String} (sound : g.WellFormed) (acyclic : g.Acyclic) (apart : universal ≠ added)
    {type : TypeExpr} (unmentioned : ¬ type.Mentions added) {target : TargetType}
    (mapped : ((TypeMapper.mk primitive? g.hierarchy universal).mapType type).outcome =
      .ok target) : target.referenced? ≠ some added := by
  rcases TypeMapper.mapType_cases mapped with ⟨_, rfl⟩ | ⟨_, _, _, rfl, _, rfl⟩ |
    ⟨_, _, _, _, _, _, rfl⟩ | ⟨_, _, _, _, rfl, _, shared, rfl⟩
  · simp [TargetType.referenced?]
  · intro refers
    exact unmentioned ⟨_, .self, .inr (Option.some.inj refers)⟩
  · simp [TargetType.referenced?]
  · intro refers
    -- The common ancestor is the universal type or declared, and the new type is neither.
    obtain ⟨_, same⟩ := (TargetType.referenced?_eq_some_iff.mp refers).resolve_left nofun
    obtain ⟨rfl, -⟩ := TargetType.unionOf.inj same
    rcases commonAncestor_declared sound acyclic shared with same | declared
    · exact apart same.symm
    · exact grown.ne_of_declared declared rfl

theorem requiredOverrides_eq (grown : g.GrowsBy added g') (rule : OverrideRule) (p : Property)
    {referenced : Option String} (other : referenced ≠ some added) :
    g'.requiredOverrides rule p referenced = g.requiredOverrides rule p referenced := by
  cases referenced with
  | none => rfl
  | some name =>
    have same : g'.node? name = g.node? name := grown.node?_eq fun same => other (by rw [same])
    simp only [requiredOverrides, Option.bind_some, same]

end GrowsBy

/-! ### Classes -/

section Classes

variable {primitive? : String → Option String} {config : Config}

theorem GrowsBy.mapProperty_eq (grown : g.GrowsBy added g') (sound : g.WellFormed)
    (acyclic : g.Acyclic) (owner : String) {p : Property} (present : g.HasType p.type) :
    ((Resolver.ofGraph primitive? config g').mapper.mapProperty owner p).outcome =
      ((Resolver.ofGraph primitive? config g).mapper.mapProperty owner p).outcome := by
  cases enum : p.isEnum with
  | true => rw [TypeMapper.mapProperty_enum enum, TypeMapper.mapProperty_enum enum]
  | false =>
    rw [TypeMapper.mapProperty_plain enum, TypeMapper.mapProperty_plain enum]
    exact grown.mapType_eq sound acyclic p.type (grown.unmentioned p.type present)

theorem GrowsBy.resolveAlias_eq (grown : g.GrowsBy added g') (sound : g.WellFormed)
    (acyclic : g.Acyclic) {node : TypeNode} (present : g.HasType node.type) :
    ((Resolver.ofGraph primitive? config g').resolveAlias node).outcome =
      ((Resolver.ofGraph primitive? config g).resolveAlias node).outcome := by
  have same : ((Resolver.ofGraph primitive? config g').mapper.mapType node.type).outcome =
      ((Resolver.ofGraph primitive? config g).mapper.mapType node.type).outcome :=
    grown.mapType_eq sound acyclic node.type (grown.unmentioned node.type present)
  unfold Resolver.resolveAlias
  split
  · rw [Logged.outcome_map, Logged.outcome_map, mappedOrDropped_outcome, mappedOrDropped_outcome,
      same]
  · rfl

theorem GrowsBy.visibleProperties_eq (grown : g.GrowsBy added g') (line : g.Lineage name path) :
    (Resolver.ofGraph primitive? config g').visibleProperties path =
      (Resolver.ofGraph primitive? config g).visibleProperties path := by
  have same : (Resolver.ofGraph primitive? config g').graph.flatten path =
      (Resolver.ofGraph primitive? config g).graph.flatten path := grown.flatten_eq line
  rw [Resolver.visibleProperties, Resolver.visibleProperties, same]
  rfl

variable (grown : g.GrowsBy added g') (sound : g.WellFormed) (acyclic : g.Acyclic)
  (apart : config.universalBaseType ≠ added)

include grown sound acyclic apart

/-- A field of another type is the same, as it does not refer to the new type. -/
theorem GrowsBy.fieldOf_eq {owner : String} {p : Property} (present : g.HasType p.type)
    {target : TargetType}
    (mapped : ((Resolver.ofGraph primitive? config g).mapper.mapProperty owner p).outcome =
      .ok target) :
    (Resolver.ofGraph primitive? config g').fieldOf p target =
      (Resolver.ofGraph primitive? config g).fieldOf p target := by
  have other : target.referenced? ≠ some added := by
    cases enum : p.isEnum with
    | true =>
      rw [TypeMapper.mapProperty_enum enum] at mapped
      cases mapped
      simp [TargetType.referenced?]
    | false =>
      rw [TypeMapper.mapProperty_plain enum] at mapped
      exact grown.referenced?_ne sound acyclic apart (grown.unmentioned p.type present) mapped
  funext isMember
  simp only [Resolver.fieldOf, Resolver.graph, Resolver.ofGraph, Resolver.withOptions, hierarchy,
    grown.requiredOverrides_eq _ p other]

theorem GrowsBy.resolveField_eq {owner : String} (other : owner ≠ added) {p : Property}
    (present : g.HasType p.type) :
    ((Resolver.ofGraph primitive? config g').resolveField owner p).outcome =
      ((Resolver.ofGraph primitive? config g).resolveField owner p).outcome := by
  have placed : (Resolver.ofGraph primitive? config g').hierarchy.isMember owner p =
      (Resolver.ofGraph primitive? config g).hierarchy.isMember owner p :=
    grown.isMember_eq sound acyclic other p
  rw [Resolver.resolveField, Resolver.resolveField, Logged.outcome_bind, Logged.outcome_bind,
    mappedOrDropped_outcome, mappedOrDropped_outcome,
    grown.mapProperty_eq sound acyclic owner present]
  cases mapped : ((Resolver.ofGraph primitive? config g).mapper.mapProperty owner p).outcome with
  | error fault => cases fault <;> rfl
  | ok target =>
    simp only [ok_bind, Logged.outcome_map, Resolver.outcome_fieldWith, placed,
      grown.fieldOf_eq sound acyclic apart present mapped]

/-- A type that was there is resolved to the same class, up to its place among the types. -/
theorem GrowsBy.resolveClass_kept (declared : g.isDeclared name = true) :
    Alike ClassResolution.KeptAs
      ((Resolver.ofGraph primitive? config g).resolveClass name).outcome
      ((Resolver.ofGraph primitive? config g').resolveClass name).outcome := by
  obtain ⟨node, found⟩ := Option.isSome_iff_exists.mp declared
  have other : name ≠ added := grown.ne_of_declared declared
  have found' : g'.node? name = some node := (grown.node?_eq other).trans found
  obtain rfl : node.name = name := sound.keyed.of_node? found
  have walks : (Resolver.ofGraph primitive? config g').hierarchy.chain node.name =
      (Resolver.ofGraph primitive? config g).hierarchy.chain node.name :=
    grown.chain_eq sound acyclic other
  rw [resolveClass_eq found, resolveClass_eq found', Resolver.outcome_resolveNode,
    Resolver.outcome_resolveNode, walks,
    grown.resolveAlias_eq sound acyclic (.node (node?_eq_some_iff.mp found))]
  refine Alike.bind_same fun chain walked => Alike.bind_same fun enum _ =>
    Alike.bind_same fun definition _ => ?_
  rw [grown.visibleProperties_eq (chain_ok_iff.mp walked)]
  refine Alike.bind_same fun properties visible => ?_
  have present := hasType_of_visibleProperties visible walked
  rw [mapM_congr fun p listed =>
    grown.resolveField_eq sound acyclic apart other (present p listed)]
  -- The same parts are put together, with the children that each of the graphs has.
  exact Alike.map_same fun fields => ⟨rfl, rfl, rfl⟩

end Classes

end TypeGraph

end RamlTypes
