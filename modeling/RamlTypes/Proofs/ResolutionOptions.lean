import RamlTypes.Proofs.CommonAncestors
import RamlTypes.Proofs.ParallelRuns

/-!
# What the options of a resolution change

The annotation style decides which types are read by a deserializer, the rule for overrides what a
use of a type requires, and the universal base type what a union is typed as whose members share no
ancestor. Each of them goes into this one part of a model and nowhere else. Whether a resolution
fails, and what with, does not depend on them.
-/
namespace RamlTypes

/-! ### Differences between models -/

/-- The new name in place of the old one. -/
def Value.renamed (old new : String) : Value → Value
  | .scalar (.text name) => if name = old then new else name
  | other => other

namespace TargetType

mutual

/-- The type with another common ancestor for the unions that have the old one. -/
def rebased (old new : String) : TargetType → TargetType
  | primitive name => primitive name
  | listOf element => listOf (element.rebased old new)
  | enumRef name => enumRef name
  | objectRef name => objectRef name
  | unionOf ancestor members =>
      unionOf (ancestor.renamed old new) (rebasedAll old new members)

def rebasedAll (old new : String) : List TargetType → List TargetType
  | [] => []
  | target :: rest => target.rebased old new :: rebasedAll old new rest

end

/-- A name can be looked up as well as any other one. -/
theorem checkReference_rebased (target : TargetType) (old new : String) :
    (target.rebased old new).checkReference = target.checkReference := by
  cases target with
  | unionOf ancestor members =>
    rw [rebased]
    fun_cases Value.renamed old new ancestor <;> rfl
  | _ => rfl

end TargetType

/-- The field with the same change in its type. -/
def ResolvedField.rebased (old new : String) (f : ResolvedField) : ResolvedField :=
  { f with type := f.type.rebased old new }

def ResolvedClass.rebased (old new : String) (c : ResolvedClass) : ResolvedClass :=
  { c with
    fields := c.fields.map (·.rebased old new)
    definition := c.definition.map (·.rebased old new) }

def Model.rebased (old new : String) (m : Model) : Model :=
  { m with classes := m.classes.map (·.rebased old new) }

/-- The models differ in the deserializers, and in what references are read through. -/
structure Model.SameButDispatch (m m' : Model) : Prop where
  same : m' = { m with classes := m'.classes, deserializers := m'.deserializers }
  classes : List.Forall₂ (fun c c' : ResolvedClass =>
    c' = { c with deserializerTarget := c'.deserializerTarget }) m.classes m'.classes

/-- The classes differ in what their fields require of the types that they refer to. -/
structure ResolvedClass.SameButOverrides (c c' : ResolvedClass) : Prop where
  same : c' = { c with fields := c'.fields }
  fields : List.Forall₂ (fun f f' : ResolvedField =>
    f' = { f with requiredOverrides := f'.requiredOverrides }) c.fields c'.fields

structure Model.SameButOverrides (m m' : Model) : Prop where
  same : m' = { m with classes := m'.classes }
  classes : List.Forall₂ ResolvedClass.SameButOverrides m.classes m'.classes

/-! ### Other universal base types -/

namespace TypeGraph

variable {g : TypeGraph} {old : String}

theorem declared_of_memberAncestors {member ancestor : String} {chain : List String}
    (walked : g.hierarchy.memberAncestors member = .ok chain) (above : ancestor ∈ chain) :
    g.isDeclared ancestor = true := by
  unfold Hierarchy.memberAncestors at walked
  split at walked
  · obtain ⟨path, found, rfl⟩ := (map_ok_iff _ _ _).mp walked
    exact (chain_ok_iff.mp found).declared ancestor (List.mem_of_mem_tail above)
  · cases walked
    cases above

/-- What all members share is declared. -/
theorem declared_of_nearestShared {members : List String} {chains : List (List String)}
    {nearest : String} (computed : members.mapM g.hierarchy.memberAncestors = .ok chains)
    (found : Hierarchy.nearestShared chains = some nearest) : g.isDeclared nearest = true := by
  cases chains with
  | nil => cases found
  | cons first rest =>
    obtain ⟨member, _, walked⟩ := source_of_mem computed List.mem_cons_self
    have above := (Hierarchy.nearestShared_spec found).1 first List.mem_cons_self
    exact declared_of_memberAncestors walked above

/-- An undeclared name is found for some types only where they share nothing. -/
theorem commonAncestor_rebased (foreign : g.isDeclared old = false) (new : String)
    (members : List String) :
    (g.hierarchy.commonAncestor new members).outcome =
      Value.renamed old new <$> (g.hierarchy.commonAncestor old members).outcome := by
  cases computed : members.eraseDups.mapM g.hierarchy.memberAncestors with
  | error fault =>
    -- The search ends before it gets to a universal type.
    simp only [Hierarchy.commonAncestor, Logged.outcome_bind, Logged.outcome_mapM,
      Logged.outcome_ofExcept, computed, error_bind, map_error]
  | ok chains =>
    rw [commonAncestor_outcome new computed, commonAncestor_outcome old computed, map_ok]
    cases nearest : Hierarchy.nearestShared chains with
    | none => simp [Value.renamed]
    | some ancestor =>
      -- What is shared is declared, so it cannot be mistaken for the old name.
      have declared := declared_of_nearestShared computed nearest
      have apart : ancestor ≠ old := by
        rintro rfl
        simp [foreign] at declared
      simp [Value.renamed, apart]

end TypeGraph

namespace TypeMapper

variable {g : TypeGraph} {old : String} (primitive? : String → Option String) (new : String)

mutual

/-- Another universal type takes the place of the old one in what an expression is mapped to. -/
theorem mapType_rebased (foreign : g.isDeclared old = false) :
    ∀ type : TypeExpr,
      ((TypeMapper.mk primitive? g.hierarchy new).mapType type).outcome =
        TargetType.rebased old new <$>
          ((TypeMapper.mk primitive? g.hierarchy old).mapType type).outcome
  | .named raw name qualifier => by
    simp only [mapType]
    split
    · rfl
    · split <;> rfl
  | .array raw dimensions element => by
    simp only [mapType]
    split
    · rfl
    · split
      · rfl
      · simp only [Logged.outcome_bind, mapType_rebased foreign element]
        cases ((TypeMapper.mk primitive? g.hierarchy old).mapType element).outcome <;> rfl
  | .map raw value => by
    simp only [mapType]
    split <;> rfl
  | .union raw members => by
    simp only [mapType]
    split
    · rfl
    · simp only [Logged.outcome_bind, mapTypes_rebased foreign members,
        TypeGraph.commonAncestor_rebased foreign new]
      cases ((TypeMapper.mk primitive? g.hierarchy old).mapTypes members).outcome with
      | error fault => rfl
      | ok targets =>
        cases (g.hierarchy.commonAncestor old (members.map (·.memberName))).outcome <;> rfl

theorem mapTypes_rebased (foreign : g.isDeclared old = false) :
    ∀ types : List TypeExpr,
      ((TypeMapper.mk primitive? g.hierarchy new).mapTypes types).outcome =
        TargetType.rebasedAll old new <$>
          ((TypeMapper.mk primitive? g.hierarchy old).mapTypes types).outcome
  | [] => by
    simp only [mapTypes]
    rfl
  | type :: rest => by
    simp only [mapTypes, Logged.outcome_bind, mapType_rebased foreign type,
      mapTypes_rebased foreign rest]
    cases ((TypeMapper.mk primitive? g.hierarchy old).mapType type).outcome with
    | error fault => rfl
    | ok target =>
      cases ((TypeMapper.mk primitive? g.hierarchy old).mapTypes rest).outcome <;> rfl

end

/-- Whether a mapping fails, and what with, does not depend on the universal type. -/
theorem mapType_alike (old new : String) (type : TypeExpr) :
    Alike (fun target target' => target'.checkReference = target.checkReference)
      ((TypeMapper.mk primitive? g.hierarchy old).mapType type).outcome
      ((TypeMapper.mk primitive? g.hierarchy new).mapType type).outcome := by
  -- Both types are compared with a third one, which is surely not declared.
  obtain ⟨fresh, unlisted⟩ := Infinite.exists_notMem_finset g.names.toFinset
  have foreign : g.isDeclared fresh = false := by
    rw [Bool.eq_false_iff, Ne, TypeGraph.isDeclared, Table.contains_iff]
    exact fun listed => unlisted (List.mem_toFinset.mpr listed)
  rw [mapType_rebased primitive? old foreign, mapType_rebased primitive? new foreign]
  exact Alike.map_same fun target =>
    (target.checkReference_rebased fresh new).trans (target.checkReference_rebased fresh old).symm

end TypeMapper

/-! ### Runs -/

namespace TypeGraph

variable (g : TypeGraph) (primitive? : String → Option String) (backend : String)

/-- How the resolution of a graph ends with the given options. -/
def resolution (config : Config) : Except Fault Model :=
  ((Resolver.ofGraph primitive? config g).resolve backend).outcome

/-- With other options, a resolution ends alike if types are mapped alike. -/
theorem resolution_alike (related : TargetType → TargetType → Prop) (config : Config)
    (style : String) (legacy : Bool) (universal : String)
    (mapType : ∀ type, Alike related
      ((TypeMapper.mk primitive? g.hierarchy config.universalBaseType).mapType type).outcome
      ((TypeMapper.mk primitive? g.hierarchy universal).mapType type).outcome)
    (enumRef : ∀ name, related (.enumRef name) (.enumRef name))
    (checkReference : ∀ target target', related target target' →
      target'.checkReference = target.checkReference) :
    Alike (fun m m' => m' = { m with classes := m'.classes, deserializers := m'.deserializers } ∧
        Resolver.ModelsAlike related (Resolver.ofGraph primitive? config g)
          (Resolver.ofGraph primitive? { config with
            annotations := style
            legacyRequiredOverrides := legacy
            universalBaseType := universal } g) m m')
      (g.resolution primitive? backend config)
      (g.resolution primitive? backend { config with
        annotations := style
        legacyRequiredOverrides := legacy
        universalBaseType := universal }) := by
  have parallel : Resolver.Parallel related (Resolver.ofGraph primitive? config g)
      (Resolver.ofGraph primitive? { config with
        annotations := style
        legacyRequiredOverrides := legacy
        universalBaseType := universal } g) :=
    ⟨rfl, rfl, rfl, rfl, rfl, enumRef, checkReference, fun type _ => mapType type⟩
  refine (parallel.resolve backend backend).attach.imp fun m m' ends => ?_
  obtain ⟨alike, returned, returned'⟩ := ends
  have backend_eq : m'.backend = m.backend :=
    (Resolver.backend_of_resolve returned').trans (Resolver.backend_of_resolve returned).symm
  have same := alike.same
  rw [backend_eq] at same
  exact ⟨same, alike⟩

/-! ### One option at a time -/

section SameTargets

variable {g primitive?} {config config' : Config} {c c' : ResolvedClass}

theorem fields_eq_of_classesAlike
    (alike : Resolver.ClassesAlike Eq (Resolver.ofGraph primitive? config g)
      (Resolver.ofGraph primitive? config' g) c c')
    (rule : config'.overrideRule = config.overrideRule) : c'.fields = c.fields := by
  have same : List.Forall₂ Eq c.fields c'.fields := by
    refine alike.fields.imp fun f f' fields => ?_
    obtain ⟨p, isMember, rfl⟩ := fields
    have rule : config'.options.overrideRule = config.options.overrideRule := rule
    simp only [Resolver.fieldOf, Resolver.graph, Resolver.ofGraph, Resolver.withOptions, rule]
  rw [List.forall₂_eq_eq_eq] at same
  exact same.symm

/-- Classes with the same target types have the same definitions. -/
theorem same_of_classesAlike
    (alike : Resolver.ClassesAlike Eq (Resolver.ofGraph primitive? config g)
      (Resolver.ofGraph primitive? config' g) c c') :
    c' = { c with fields := c'.fields, deserializerTarget := c'.deserializerTarget } := by
  have mapped : c.definition.map id = c'.definition := map_eq_of_rel alike.definition
  rw [Option.map_id] at mapped
  have same := alike.same
  rwa [← mapped] at same

end SameTargets

theorem resolution_annotations (config : Config) (style : String) :
    Alike Model.SameButDispatch (g.resolution primitive? backend config)
      (g.resolution primitive? backend { config with annotations := style }) := by
  refine (resolution_alike g primitive? backend Eq config style config.legacyRequiredOverrides
    config.universalBaseType (fun _ => .refl (fun _ => rfl) _) (fun _ => rfl)
    fun _ _ same => by rw [same]).imp ?_
  rintro m m' ⟨same, alike⟩
  refine ⟨same, alike.classes.imp fun c c' classes => ?_⟩
  -- The rule for overrides is the one of before, so the fields are the same as well.
  have same := same_of_classesAlike classes
  rwa [fields_eq_of_classesAlike classes rfl] at same

/-- Every style that is not empty asks for the same deserializers. -/
theorem needsDeserializer_style {style style' : String} (styled : style ≠ "")
    (styled' : style' ≠ "") (h : Hierarchy) (usage : Usage) :
    (Dispatch.mk h usage style').needsDeserializer =
      (Dispatch.mk h usage style).needsDeserializer := by
  funext name
  have enabled : (style != "") = true := by simpa using styled
  have enabled' : (style' != "") = true := by simpa using styled'
  simp only [Dispatch.needsDeserializer, enabled, enabled']
  rfl

theorem resolution_style (config : Config) {style style' : String} (styled : style ≠ "")
    (styled' : style' ≠ "") :
    g.resolution primitive? backend { config with annotations := style' } =
      g.resolution primitive? backend { config with annotations := style } := by
  have needed := needsDeserializer_style styled styled' g.hierarchy g.usage
  have targets : (Dispatch.mk g.hierarchy g.usage style').deserializerTarget =
      (Dispatch.mk g.hierarchy g.usage style).deserializerTarget := by
    funext name
    simp only [Dispatch.deserializerTarget, needed]
  have ends := resolution_alike g primitive? backend Eq { config with annotations := style } style'
    config.legacyRequiredOverrides config.universalBaseType (fun _ => .refl (fun _ => rfl) _)
    (fun _ => rfl) fun _ _ same => by rw [same]
  have equal : Alike (fun m m' : Model => id m = m')
      (g.resolution primitive? backend { config with annotations := style })
      (g.resolution primitive? backend { config with annotations := style' }) := by
    refine ends.imp ?_
    rintro m m' ⟨same, alike⟩
    -- What could still differ is the dispatch, which both styles ask for.
    have classes : List.Forall₂ Eq m.classes m'.classes := by
      refine alike.classes.imp fun c c' classes => ?_
      have same := same_of_classesAlike classes
      rw [fields_eq_of_classesAlike classes rfl, classes.deserializerTarget_eq targets] at same
      exact same.symm
    rw [List.forall₂_eq_eq_eq] at classes
    rw [← classes, alike.deserializers_eq needed] at same
    exact same.symm
  rw [alike_map_iff.mp equal, id_map]

theorem resolution_legacy (config : Config) (legacy : Bool) :
    Alike Model.SameButOverrides (g.resolution primitive? backend config)
      (g.resolution primitive? backend { config with legacyRequiredOverrides := legacy }) := by
  refine (resolution_alike g primitive? backend Eq config config.annotations legacy
    config.universalBaseType (fun _ => .refl (fun _ => rfl) _) (fun _ => rfl)
    fun _ _ same => by rw [same]).imp ?_
  rintro m m' ⟨same, alike⟩
  refine ⟨?_, alike.classes.imp fun c c' classes => ⟨?_, ?_⟩⟩
  · rwa [alike.deserializers_eq rfl] at same
  · have same := same_of_classesAlike classes
    rwa [classes.deserializerTarget_eq rfl] at same
  · refine classes.fields.imp fun f f' fields => ?_
    obtain ⟨p, isMember, rfl⟩ := fields
    rfl

/-- Whatever the options are, a resolution fails with the same fault or does not fail. -/
theorem resolution_fails (config : Config) (style : String) (legacy : Bool) (universal : String) :
    Alike (fun _ _ => True) (g.resolution primitive? backend config)
      (g.resolution primitive? backend { config with
        annotations := style
        legacyRequiredOverrides := legacy
        universalBaseType := universal }) :=
  (resolution_alike g primitive? backend _ config style legacy universal
    (TypeMapper.mapType_alike primitive? config.universalBaseType universal) (fun _ => rfl)
    fun _ _ same => same).imp fun _ _ _ => trivial

/-! ### Another universal base type -/

theorem unionMembers_rebased (p : Property) (old new : String) (target : TargetType) :
    Resolver.unionMembers p (target.rebased old new) = Resolver.unionMembers p target := by
  cases target with
  | unionOf ancestor members =>
    unfold Resolver.unionMembers
    cases p.type <;> rfl
  | _ => rfl

section Rebased

variable {g primitive?} {old new : String} (foreign : g.isDeclared old = false)
  (foreign' : g.isDeclared new = false)

include foreign foreign'

/-- Neither of the universal types has properties that a use could require more of. -/
theorem node?_rebased (target : TargetType) :
    (target.rebased old new).referenced?.bind g.node? = target.referenced?.bind g.node? := by
  cases target with
  | unionOf ancestor members =>
    rw [TargetType.rebased]
    fun_cases Value.renamed old new ancestor with
    | case1 => exact (node?_of_undeclared foreign').trans (node?_of_undeclared foreign).symm
    | case2 => rfl
    | case3 =>
      cases ancestor with
      | scalar s => cases s <;> rfl
      | _ => rfl
  | _ => rfl

theorem rebased_of_fieldsAlike {config config' : Config} {f f' : ResolvedField}
    (alike : Resolver.FieldsAlike (fun target target' => target.rebased old new = target')
      (Resolver.ofGraph primitive? config g) (Resolver.ofGraph primitive? config' g) f f')
    (rule : config'.overrideRule = config.overrideRule) : f.rebased old new = f' := by
  obtain ⟨p, isMember, rfl⟩ := alike
  have rule : config'.options.overrideRule = config.options.overrideRule := rule
  simp only [Resolver.fieldOf, ResolvedField.rebased, unionMembers_rebased, Resolver.graph,
    Resolver.ofGraph, Resolver.withOptions, hierarchy, rule, requiredOverrides,
    node?_rebased foreign foreign']

theorem rebased_of_classesAlike {config config' : Config} {c c' : ResolvedClass}
    (alike : Resolver.ClassesAlike (fun target target' => target.rebased old new = target')
      (Resolver.ofGraph primitive? config g) (Resolver.ofGraph primitive? config' g) c c')
    (rule : config'.overrideRule = config.overrideRule)
    (annotations : config'.annotations = config.annotations) : c.rebased old new = c' := by
  have fields : List.Forall₂ Eq (c.fields.map (·.rebased old new)) c'.fields :=
    List.forall₂_map_left_iff.mpr
      (alike.fields.imp fun _ _ field => rebased_of_fieldsAlike foreign foreign' field rule)
  rw [List.forall₂_eq_eq_eq] at fields
  -- The universal type plays no role in the dispatch.
  have targets : (Resolver.ofGraph primitive? config' g).dispatch.deserializerTarget =
      (Resolver.ofGraph primitive? config g).dispatch.deserializerTarget := by
    have annotations : config'.options.annotations = config.options.annotations := annotations
    simp only [Resolver.dispatch, Resolver.ofGraph, Resolver.withOptions, annotations]
  rw [alike.same, alike.deserializerTarget_eq targets, ← fields, ← map_eq_of_rel alike.definition]
  rfl

end Rebased

theorem resolution_universalBaseType {config : Config}
    (foreign : g.isDeclared config.universalBaseType = false) {universal : String}
    (foreign' : g.isDeclared universal = false) :
    g.resolution primitive? backend { config with universalBaseType := universal } =
      Model.rebased config.universalBaseType universal <$>
        g.resolution primitive? backend config := by
  have mapped (type : TypeExpr) :
      Alike (fun target target' => target.rebased config.universalBaseType universal = target')
        ((TypeMapper.mk primitive? g.hierarchy config.universalBaseType).mapType type).outcome
        ((TypeMapper.mk primitive? g.hierarchy universal).mapType type).outcome := by
    exact alike_map_iff.mpr (TypeMapper.mapType_rebased primitive? universal foreign type)
  refine alike_map_iff.mp ((resolution_alike g primitive? backend _ config config.annotations
    config.legacyRequiredOverrides universal mapped (fun _ => rfl) ?_).imp ?_)
  · rintro target _ rfl
    exact target.checkReference_rebased config.universalBaseType universal
  rintro m m' ⟨same, alike⟩
  have classes : List.Forall₂ Eq
      (m.classes.map (·.rebased config.universalBaseType universal)) m'.classes := by
    refine List.forall₂_map_left_iff.mpr (alike.classes.imp fun c c' classes => ?_)
    exact rebased_of_classesAlike foreign foreign' classes rfl rfl
  rw [List.forall₂_eq_eq_eq] at classes
  rw [alike.deserializers_eq rfl, ← classes] at same
  exact same.symm

/-! ### All options -/

/-- Each option changes its own part of a model only. The annotation style changes the dispatch, and
only by being empty or not; the rule for overrides changes the overrides; and an undeclared
universal base type stands where the one before it stood. Faults are the same for all options. -/
theorem resolution_options (g : TypeGraph) (primitive? : String → Option String)
    (backend : String) (config : Config) :
    (∀ style, Alike Model.SameButDispatch (g.resolution primitive? backend config)
      (g.resolution primitive? backend { config with annotations := style })) ∧
    (∀ style style', style ≠ "" → style' ≠ "" →
      g.resolution primitive? backend { config with annotations := style' } =
        g.resolution primitive? backend { config with annotations := style }) ∧
    (∀ legacy, Alike Model.SameButOverrides (g.resolution primitive? backend config)
      (g.resolution primitive? backend { config with legacyRequiredOverrides := legacy })) ∧
    (∀ universal, g.isDeclared config.universalBaseType = false →
      g.isDeclared universal = false →
      g.resolution primitive? backend { config with universalBaseType := universal } =
        Model.rebased config.universalBaseType universal <$>
          g.resolution primitive? backend config) ∧
    ∀ style legacy universal, Alike (fun _ _ => True) (g.resolution primitive? backend config)
      (g.resolution primitive? backend { config with
        annotations := style
        legacyRequiredOverrides := legacy
        universalBaseType := universal }) :=
  ⟨resolution_annotations g primitive? backend config,
    fun _ _ => resolution_style g primitive? backend config,
    resolution_legacy g primitive? backend config,
    fun _ foreign => resolution_universalBaseType g primitive? backend foreign,
    resolution_fails g primitive? backend config⟩

/-- A keeper has an age, which not every person has. -/
def keeperProperties : List Property :=
  [⟨"age", .named "integer" "integer" "", true, [], none, ""⟩,
    ⟨"phone", .named "string" "string" "", true, [], none, ""⟩]

/-- A pet of two kinds, something to play with and a keeper. -/
def adoptionProperties : Table String Property :=
  ⟨[
    ("pet", ⟨"pet", .union "Cat | Dog" [.named "Cat" "Cat" "", .named "Dog" "Dog" ""],
      true, [], none, ""⟩),
    ("toy", ⟨"toy", .union "Cat | string" [.named "Cat" "Cat" "", .named "string" "string" ""],
      true, [], none, ""⟩),
    ("keeper", ⟨"keeper", .named "Person" "Person" "", true, keeperProperties, none, ""⟩)],
    by simp⟩

def adoptionGraph : TypeGraph where
  title := ""
  nodes := ⟨[
    ("Pet", objectNode "Pet" none .empty),
    ("Cat", objectNode "Cat" (some "Pet") .empty),
    ("Dog", objectNode "Dog" (some "Pet") .empty),
    ("Person", objectNode "Person" none
      ⟨[("phone", ⟨"phone", .named "string" "string" "", true, [], none, ""⟩)], by simp⟩),
    ("Adoption", objectNode "Adoption" none adoptionProperties)], by simp⟩
  resources := []

/-- Cats and dogs are dispatched with any style, a keeper has to have one thing more, and a toy is
anything. -/
theorem resolution_options_adoptions :
    ∃ m styled listed,
      adoptionGraph.resolution Profile.java.primitive? "java" {} = .ok m ∧
      adoptionGraph.resolution Profile.java.primitive? "java" { annotations := "gson" } =
        .ok styled ∧
      "gson" ≠ "" ∧ "jackson" ≠ "" ∧
      adoptionGraph.resolution Profile.java.primitive? "java" { annotations := "jackson" } =
        .ok styled ∧
      adoptionGraph.resolution Profile.java.primitive? "java"
        { legacyRequiredOverrides := false } = .ok listed ∧
      adoptionGraph.isDeclared "Object" = false ∧ adoptionGraph.isDeclared "Any" = false ∧
      adoptionGraph.resolution Profile.java.primitive? "java" { universalBaseType := "Any" } =
        .ok (m.rebased "Object" "Any") ∧
      m.SameButDispatch styled ∧ m.SameButOverrides listed ∧
      m.deserializers = [] ∧
      styled.deserializers = [⟨"PetDeserializer", "Pet", ["Cat", "Dog"], "name"⟩] ∧
      m.classes.flatMap (·.fields.flatMap (·.requiredOverrides)) = ["phone"] ∧
      listed.classes.flatMap (·.fields.flatMap (·.requiredOverrides)) = ["age"] ∧
      m.classes.flatMap (·.fields.filterMap (·.type.referenced?)) =
        ["Pet", "Object", "Person"] := by
  obtain ⟨annotations, style, legacy, universal, _⟩ :=
    resolution_options adoptionGraph Profile.java.primitive? "java" {}
  obtain ⟨m, returned, facts⟩ : ∃ m,
      adoptionGraph.resolution Profile.java.primitive? "java" {} = .ok m ∧
      (m.deserializers, m.classes.flatMap (·.fields.flatMap (·.requiredOverrides)),
        m.classes.flatMap (·.fields.filterMap (·.type.referenced?))) =
      ([], ["phone"], ["Pet", "Object", "Person"]) :=
    exists_of_toOption_map (by decide +kernel)
  obtain ⟨styled, returned', dispatched⟩ : ∃ styled,
      adoptionGraph.resolution Profile.java.primitive? "java" { annotations := "gson" } =
        .ok styled ∧
      styled.deserializers = [⟨"PetDeserializer", "Pet", ["Cat", "Dog"], "name"⟩] :=
    exists_of_toOption_map (by decide +kernel)
  obtain ⟨listed, returned'', required⟩ : ∃ listed,
      adoptionGraph.resolution Profile.java.primitive? "java"
        { legacyRequiredOverrides := false } = .ok listed ∧
      listed.classes.flatMap (·.fields.flatMap (·.requiredOverrides)) = ["age"] :=
    exists_of_toOption_map (by decide +kernel)
  have other := style "gson" "jackson" (by decide) (by decide)
  have based := universal "Any" (by decide) (by decide)
  have dispatch := annotations "gson"
  have overrides := legacy false
  simp only [returned, returned', returned'', alike_ok_iff] at other based dispatch overrides
  simp only [Prod.mk.injEq] at facts
  obtain ⟨plain, named, types⟩ := facts
  exact ⟨m, styled, listed, returned, returned', by decide, by decide, other, returned'',
    by decide, by decide, based, dispatch, overrides, plain, dispatched, named, required, types⟩

end TypeGraph

end RamlTypes
