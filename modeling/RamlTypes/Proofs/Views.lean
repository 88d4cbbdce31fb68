import RamlTypes.Proofs.Origins

/-!
# Models as views

A configuration can leave types and fields out and put types first. This only changes what is shown
of the model in which nothing is left out: the classes that are left stand in the order that is
asked for, each without the hidden fields, and with it stand the enums, warnings and deserializers
of the class. Nothing that is shown depends on what is not.
-/
namespace RamlTypes

/-! ### The order of names -/

/-- Arranging puts the wanted names first, each once, and leaves the others in their order. -/
theorem arrange_eq {names : List String} (nodup : names.Nodup) (order : List String) :
    Resolver.arrange order names =
      (order.filter (· ∈ names)).eraseDups ++ names.filter (· ∉ order) := by
  induction order generalizing names with
  | nil => simp [Resolver.arrange]
  | cons name order ih =>
    rw [Resolver.arrange]
    split
    next present =>
      -- The name is taken out, and does not count any more when it comes again.
      have first : order.filter (· ∈ names.erase name) =
          (order.filter (· ∈ names)).filter (· ≠ name) := by
        rw [List.filter_filter]
        apply List.filter_congr
        intro other _
        simp [nodup.mem_erase_iff]
      have others : (names.erase name).filter (· ∉ order) = names.filter (· ∉ name :: order) := by
        rw [nodup.erase_eq_filter, List.filter_filter]
        apply List.filter_congr
        intro other _
        by_cases same : other = name
        · simp [same]
        · simp [same]
      rw [ih (nodup.erase name), first, others, List.filter_cons_of_pos (by simpa using present),
        List.eraseDups_cons, List.cons_append]
      simp only [ne_eq, decide_not, beq_eq_decide]
    next absent =>
      have others : names.filter (· ∉ order) = names.filter (· ∉ name :: order) := by
        apply List.filter_congr
        intro other member
        have apart : other ≠ name := fun same => absent (same ▸ member)
        simp [apart]
      rw [ih nodup, List.filter_cons_of_neg (by simpa using absent), others]

/-- Names that are left out do not change how the others are arranged. -/
theorem arrange_filter {names : List String} (nodup : names.Nodup) (order : List String)
    (keep : String → Bool) :
    (Resolver.arrange order names).filter keep =
      Resolver.arrange order (names.filter keep) := by
  rw [arrange_eq nodup, arrange_eq (nodup.filter keep), List.filter_append, filter_eraseDups,
    List.filter_filter, List.filter_filter, List.filter_filter]
  simp only [List.mem_filter, Bool.decide_and, Bool.decide_eq_true, Bool.and_comm]

/-! ### Hidden fields -/

/-- The class without the fields of the given names. -/
def ResolvedClass.without (c : ResolvedClass) (hidden : List String) : ResolvedClass :=
  { c with fields := c.fields.filter (·.name ∉ hidden) }

/-- The class without the fields of the given names, and without their enums and warnings. -/
def ClassResolution.without (c : ClassResolution) (hidden : List String) : ClassResolution where
  record := c.record.without hidden
  enums := c.enums.filter (·.propertyName ∉ hidden)
  warnings := c.warnings.filter (·.fieldName ∉ hidden)

/-- The result is for a field that is not hidden. -/
def isShown (hidden : List String) : Except FieldWarning FieldResolution → Bool
  | .error warning => warning.fieldName ∉ hidden
  | .ok resolution => resolution.field.name ∉ hidden

variable {hidden : List String}

theorem Resolver.IsResultFor.isShown_eq {owner : String} {p : Property}
    {result : Except FieldWarning FieldResolution} (standing : IsResultFor owner p result) :
    isShown hidden result = decide (p.name ∉ hidden) := by
  cases standing with
  | kept named _ => simp [isShown, named]
  | dropped _ fieldName => simp [isShown, fieldName]

theorem keptOf_shown (results : List (Except FieldWarning FieldResolution)) :
    keptOf (results.filter (isShown hidden)) =
      (keptOf results).filter (·.field.name ∉ hidden) := by
  simp only [keptOf, List.filterMap_filter, List.filter_filterMap]
  apply List.filterMap_congr
  intro result _
  cases result with
  | error warning => simp
  | ok resolution => simp [isShown, Option.filter]

theorem droppedOf_shown (results : List (Except FieldWarning FieldResolution)) :
    droppedOf (results.filter (isShown hidden)) =
      (droppedOf results).filter (·.fieldName ∉ hidden) := by
  simp only [droppedOf, List.filterMap_filter, List.filter_filterMap]
  apply List.filterMap_congr
  intro result _
  cases result with
  | error warning => simp [isShown, Option.filter]
  | ok resolution => simp

/-- The results for the properties that are shown make the class without the hidden fields. -/
theorem Resolver.classWith_shown {r : Resolver} {node : TypeNode} {enum : Option EnumDef}
    {definition : Option (Except FieldWarning TargetType)}
    {fields : List (Except FieldWarning FieldResolution)} (chain : List String)
    (nonempty : "" ∉ hidden) (built : ∀ e ∈ enum, e.propertyName = "")
    (aliased : ∀ warning ∈ droppedOf definition.toList, warning.fieldName = "")
    (standing : ∀ result ∈ fields, ∃ p, IsResultFor node.name p result) :
    r.classWith node chain enum definition (fields.filter (isShown hidden)) =
      (r.classWith node chain enum definition fields).without hidden := by
  have shown : ((keptOf fields).filter (·.field.name ∉ hidden)).map (·.field) =
      ((keptOf fields).map (·.field)).filter (·.name ∉ hidden) := by
    rw [List.filter_map]
    rfl
  -- What belongs to the type itself has an empty name, which is not hidden.
  have own : enum.toList.filter (·.propertyName ∉ hidden) = enum.toList := by
    apply List.filter_eq_self.mpr
    intro e present
    simpa [built e (Option.mem_toList.mp present)] using nonempty
  have own' : (droppedOf definition.toList).filter (·.fieldName ∉ hidden) =
      droppedOf definition.toList := by
    apply List.filter_eq_self.mpr
    intro warning member
    simpa [aliased warning member] using nonempty
  have enums : ((keptOf fields).filter (·.field.name ∉ hidden)).filterMap (·.enum) =
      ((keptOf fields).filterMap (·.enum)).filter (·.propertyName ∉ hidden) := by
    rw [List.filterMap_filter, List.filter_filterMap]
    apply List.filterMap_congr
    intro resolution member
    obtain ⟨p, kept⟩ := standing _ (mem_keptOf.mp member)
    cases kept with
    | kept named origin =>
      cases made : resolution.enum with
      | none => simp
      | some e =>
        have same : e.propertyName = resolution.field.name :=
          (origin e (by simp [made])).2.trans named.symm
        simp [Option.filter, same]
  simp only [classWith, ClassResolution.without, ResolvedClass.without, keptOf_shown,
    droppedOf_shown, List.filter_append, shown, own, own', enums]

/-- The configuration that shows everything, in the order of declaration. -/
def Config.showingAll (config : Config) : Config :=
  { config with ignoreClasses := [], globalIgnoreFields := [], orderClasses := [] }

namespace TypeGraph

variable {g : TypeGraph} {primitive? : String → Option String} {config : Config}

/-- The properties that are shown are those of the whole type that are not hidden by their name. -/
theorem Lineage.visibleProperties_shown {name : String} {path : List String}
    {properties : List Property} (line : g.Lineage name path) (keyed : g.Keyed)
    (visible : (Resolver.ofGraph primitive? config.showingAll g).visibleProperties path =
      .ok properties) :
    (Resolver.ofGraph primitive? config g).visibleProperties path =
      .ok (properties.filter (·.name ∉ config.globalIgnoreFields)) := by
  obtain ⟨table, flat, _⟩ := line.flatten_returns
  have named := line.flatten_named keyed flat
  have whole : table.entries.map Prod.snd = properties := by
    rw [visibleProperties_of_flatten flat] at visible
    simpa [Config.showingAll] using visible
  rw [visibleProperties_of_flatten flat, ← whole, List.filter_map]
  have same : table.entries.filter (!config.globalIgnoreFields.contains ·.1) =
      table.entries.filter
        ((fun p : Property => decide (p.name ∉ config.globalIgnoreFields)) ∘ Prod.snd) := by
    apply List.filter_congr
    intro entry member
    simp [named entry member]
  rw [same]

/-- A type that can be resolved as a whole can be resolved without the hidden fields. -/
theorem resolveNode_shown (keyed : g.Keyed) (nonempty : "" ∉ config.globalIgnoreFields)
    {node : TypeNode} {resolution : ClassResolution}
    (returned : ((Resolver.ofGraph primitive? config.showingAll g).resolveNode node).outcome =
      .ok resolution) :
    ((Resolver.ofGraph primitive? config g).resolveNode node).outcome =
      .ok (resolution.without config.globalIgnoreFields) := by
  -- All steps are the same but the traversal, which leaves the hidden properties out.
  obtain ⟨chain, enum, definition, properties, fields, walked, built, aliased, visible, resolved,
    rfl⟩ := Resolver.resolveNode_ok_iff.mp returned
  have line : g.Lineage node.name chain := chain_ok_iff.mp walked
  have shown := line.visibleProperties_shown keyed visible
  have named : ∀ p result,
      ((Resolver.ofGraph primitive? config.showingAll g).resolveField node.name p).outcome =
          .ok result →
        isShown config.globalIgnoreFields result =
          decide (p.name ∉ config.globalIgnoreFields) :=
    fun p result given => (Resolver.resolveField_isResultFor given).isShown_eq
  have standing : ∀ result ∈ fields, ∃ p, Resolver.IsResultFor node.name p result := by
    intro result member
    obtain ⟨p, _, given⟩ := source_of_mem resolved member
    exact ⟨p, Resolver.resolveField_isResultFor given⟩
  have made : (Resolver.ofGraph primitive? config g).classWith node chain enum definition
        (fields.filter (isShown config.globalIgnoreFields)) =
      ((Resolver.ofGraph primitive? config g).classWith node chain enum definition fields).without
        config.globalIgnoreFields := by
    apply Resolver.classWith_shown chain nonempty _ _ standing
    · exact fun e present => (enumOf_origin built e present).2
    · exact fun warning member => (Resolver.resolveAlias_origin aliased warning member).2
  exact Resolver.resolveNode_ok_iff.mpr
    ⟨chain, enum, definition, _, _, walked, built, aliased, shown, mapM_filter resolved named,
      made.symm⟩

end TypeGraph

/-! ### Views -/

/-- The names in the order that is asked for, without those that are ignored. -/
def Config.arranged (config : Config) (declared : List String) : List String :=
  (config.orderClasses.filter fun name =>
      name ∈ declared ∧ name ∉ config.ignoreClasses).eraseDups ++
    declared.filter fun name => name ∉ config.ignoreClasses ∧ name ∉ config.orderClasses

/-- The model shows of the whole one what the configuration leaves, class by class in the order
that it asks for. -/
structure Model.IsView (config : Config) (declared : List String) (whole shown : Model) :
    Prop where
  title : shown.title = whole.title
  backend : shown.backend = whole.backend
  names : shown.classes.map (·.name) = config.arranged declared
  nodup : (shown.classes.map (·.name)).Nodup
  classes : ∀ c ∈ shown.classes, ∃ c', whole.class? c.name = some c' ∧
    c = c'.without config.globalIgnoreFields
  enums : shown.enums = (config.arranged declared).flatMap fun name =>
    whole.enums.filter fun e => e.owner = name ∧ e.propertyName ∉ config.globalIgnoreFields
  warnings : shown.warnings = (config.arranged declared).flatMap fun name =>
    whole.warnings.filter fun warning =>
      warning.typeName = name ∧ warning.fieldName ∉ config.globalIgnoreFields
  deserializers : shown.deserializers = (config.arranged declared).flatMap fun name =>
    whole.deserializers.filter fun d => d.base = name
  parents : shown.parents = whole.parents

/-- What belongs to the elements that are left has a label that is left. -/
theorem filter_flatMap_labelled {β γ : Type} {of : β → String} {f : β → List γ}
    {label : γ → String} {ys : List β} (keep : String → Bool)
    (labelled : ∀ y ∈ ys, ∀ e ∈ f y, label e = of y) :
    (ys.flatMap f).filter (fun e => keep (label e)) =
      (ys.filter fun y => keep (of y)).flatMap f := by
  induction ys with
  | nil => rfl
  | cons y ys ih =>
    have behind := ih fun y' listed => labelled y' (List.mem_cons_of_mem _ listed)
    have here : (f y).filter (fun e => keep (label e)) = (f y).filter fun _ => keep (of y) :=
      List.filter_congr fun e inside => by rw [labelled y List.mem_cons_self e inside]
    rw [List.flatMap_cons, List.filter_append, behind, here, List.filter_cons]
    cases keep (of y) <;> simp

/-- Of what belongs to the elements, that with the label of one element belongs to it. -/
theorem filter_flatMap_eq {β γ : Type} {of : β → String} {f : β → List γ} {label : γ → String}
    {ys : List β} {y : β} (nodup : (ys.map of).Nodup)
    (labelled : ∀ y ∈ ys, ∀ e ∈ f y, label e = of y) (member : y ∈ ys) :
    (ys.flatMap f).filter (fun e => label e = of y) = f y := by
  classical
  have same : ∀ z ∈ ys, (decide (of z = of y)) = decide (z = y) := by
    intro z listed
    have iff : of z = of y ↔ z = y :=
      ⟨List.inj_on_of_nodup_map nodup listed member, congrArg of⟩
    simp only [iff]
  rw [filter_flatMap_labelled (fun name => name = of y) labelled, List.filter_congr same,
    List.filter_eq, List.count_eq_one_of_mem nodup.of_map member]
  simp

/-- The results are for the names, each one of the whole without the hidden fields. -/
def AreShown (hidden : List String) (whole : List ClassResolution) (names : List String)
    (shown : List ClassResolution) : Prop :=
  List.Forall₂ (fun name c => ∃ c' ∈ whole, c'.record.name = name ∧ c = c'.without hidden)
    names shown

theorem AreShown.names {whole shown : List ClassResolution} {names : List String}
    (areShown : AreShown hidden whole names shown) : shown.map (·.record.name) = names := by
  unfold AreShown at areShown
  induction areShown with
  | nil => rfl
  | cons here _ ih =>
    obtain ⟨c, _, rfl, rfl⟩ := here
    rw [List.map_cons, ih]
    rfl

/-- What belongs to the results that are shown is found in the whole by its labels. -/
theorem AreShown.flatMap_eq {γ : Type} {f : ClassResolution → List γ} {label : γ → String}
    {keep : γ → Bool} {whole shown : List ClassResolution} {names : List String}
    (areShown : AreShown hidden whole names shown) (nodup : (whole.map (·.record.name)).Nodup)
    (labelled : ∀ c ∈ whole, ∀ e ∈ f c, label e = c.record.name)
    (without : ∀ c, f (c.without hidden) = (f c).filter keep) :
    shown.flatMap f = names.flatMap fun name =>
      (whole.flatMap f).filter fun e => label e = name ∧ keep e = true := by
  unfold AreShown at areShown
  induction areShown with
  | nil => rfl
  | cons here _ ih =>
    obtain ⟨c, member, rfl, rfl⟩ := here
    rw [List.flatMap_cons, List.flatMap_cons, ih, without,
      ← filter_flatMap_eq nodup labelled member, List.filter_filter]
    simp [Bool.and_comm]

/-- The deserializers of the results that are shown are found in the whole by their bases. -/
theorem AreShown.flatMap_deserializers {r : Resolver} {whole shown : List ClassResolution}
    {names : List String} (areShown : AreShown hidden whole names shown)
    (nodup : (whole.map (·.record.name)).Nodup) :
    (shown.flatMap fun c => (r.deserializer? c.record).toList) = names.flatMap fun name =>
      (whole.flatMap fun c => (r.deserializer? c.record).toList).filter fun d =>
        d.base = name ∧ true = true := by
  apply areShown.flatMap_eq nodup
  · intro c _ d present
    rw [Option.mem_toList, Resolver.deserializer?] at present
    split at present
    · cases present
      rfl
    · cases present
  · intro c
    rw [List.filter_true]
    rfl

namespace TypeGraph

variable {g : TypeGraph} {primitive? : String → Option String} {config : Config}

theorem resolvedNames_eq (primitive? : String → Option String) (config : Config) :
    (Resolver.ofGraph primitive? config g).resolvedNames config.orderClasses =
      config.arranged g.names := by
  have nodup : (g.names.filter fun name => !config.ignoreClasses.contains name).Nodup :=
    g.nodes.nodup.filter _
  have unfolded : (Resolver.ofGraph primitive? config g).resolvedNames config.orderClasses =
      Resolver.arrange config.orderClasses
        (g.names.filter fun name => !config.ignoreClasses.contains name) := rfl
  rw [unfolded, arrange_eq nodup, Config.arranged, List.filter_filter]
  simp [and_comm, Bool.and_comm]

theorem resolvedNames_showingAll :
    (Resolver.ofGraph primitive? config.showingAll g).resolvedNames
      config.showingAll.orderClasses = g.names := by
  rw [resolvedNames_eq]
  simp [Config.arranged, Config.showingAll]

/-- What is shown of the results for all types is a view of their model. -/
theorem isView_of_areShown {whole shown : List ClassResolution} (backend : String)
    (areShown : AreShown config.globalIgnoreFields whole (config.arranged g.names) shown)
    (named : whole.map (·.record.name) = g.names)
    (labelled : ∀ c ∈ whole, c.IsLabelled) :
    Model.IsView config g.names
      ((Resolver.ofGraph primitive? config.showingAll g).modelOf backend whole)
      ((Resolver.ofGraph primitive? config g).modelOf backend shown) := by
  have nodup : (whole.map (·.record.name)).Nodup := named ▸ g.nodes.nodup
  have classNames : ∀ resolutions : List ClassResolution,
      (resolutions.map (·.record)).map (·.name) = resolutions.map (·.record.name) :=
    fun resolutions => List.map_map
  have names := areShown.names
  constructor
  · rfl
  · rfl
  · exact (classNames shown).trans names
  · change ((shown.map (·.record)).map (·.name)).Nodup
    rw [classNames, names, ← resolvedNames_eq primitive? config]
    exact nodup_resolvedNames
  · intro c member
    obtain ⟨resolution, listed, rfl⟩ := List.mem_map.mp member
    obtain ⟨name, _, c', present, _, rfl⟩ := exists_of_mem_right areShown listed
    refine ⟨c'.record, ?_, rfl⟩
    change Model.class? _ c'.record.name = some c'.record
    refine Model.class?_of_mem ?_ (List.mem_map_of_mem present)
    exact (classNames whole).symm ▸ nodup
  · have enums := areShown.flatMap_eq nodup (fun c listed => (labelled c listed).enums)
      fun c => rfl
    simpa [Resolver.modelOf] using enums
  · have warnings := areShown.flatMap_eq nodup (fun c listed => (labelled c listed).warnings)
      fun c => rfl
    simpa [Resolver.modelOf] using warnings
  · have deserializers := areShown.flatMap_deserializers
      (r := Resolver.ofGraph primitive? config g) nodup
    have same : (Resolver.ofGraph primitive? config.showingAll g).deserializer? =
        (Resolver.ofGraph primitive? config g).deserializer? := rfl
    simpa [Resolver.modelOf, List.filterMap_eq_flatMap_toList, List.flatMap_map, same] using
      deserializers
  · rfl

/-- Leaving types and fields out and putting types first gives a view of the whole model. -/
theorem resolve_view (keyed : g.Keyed) (nonempty : "" ∉ config.globalIgnoreFields)
    {backend : String} {whole : Model}
    (returned : ((Resolver.ofGraph primitive? config.showingAll g).resolve backend).outcome =
      .ok whole) :
    ∃ shown, ((Resolver.ofGraph primitive? config g).resolve backend).outcome = .ok shown ∧
      Model.IsView config g.names whole shown := by
  obtain ⟨walked, resolutions, resolved, rfl⟩ := resolve_ok_iff.mp returned
  rw [resolvedNames_showingAll] at resolved
  have named := resolutions_named keyed resolved
  have labelled : ∀ c ∈ resolutions, c.IsLabelled := by
    intro c member
    obtain ⟨name, _, given⟩ := source_of_mem resolved member
    obtain ⟨node, _, made⟩ := resolveNode_of_resolveClass given
    exact Resolver.resolveNode_isLabelled made
  -- Each name that is asked for was resolved for the whole model.
  have returns : ∀ name ∈ config.arranged g.names, ∃ c,
      ((Resolver.ofGraph primitive? config g).resolveClass name).outcome = .ok c ∧
        ∃ c' ∈ resolutions, c'.record.name = name ∧
          c = c'.without config.globalIgnoreFields := by
    intro name listed
    have declared : name ∈ g.names := by
      rw [← resolvedNames_eq primitive? config] at listed
      exact (mem_resolvedNames.mp listed).1
    obtain ⟨c, member, given⟩ := result_of_mem resolved declared
    obtain ⟨node, found, made⟩ := resolveNode_of_resolveClass given
    have found : g.node? name = some node := found
    have same : c.record.name = name := (resolveNode_named made).trans (keyed.of_node? found)
    refine ⟨c.without config.globalIgnoreFields, ?_, c, member, same, rfl⟩
    rw [resolveClass_eq found]
    exact resolveNode_shown keyed nonempty made
  obtain ⟨shown, pointwise⟩ := exists_forall₂ returns
  have resolved' := (mapM_ok_iff _ _ _).mpr (pointwise.imp fun _ _ result => result.1)
  have areShown : AreShown config.globalIgnoreFields resolutions (config.arranged g.names) shown :=
    pointwise.imp fun _ _ result => result.2
  rw [← resolvedNames_eq primitive? config] at resolved'
  exact ⟨_, resolve_ok_iff.mpr ⟨walked, shown, resolved', rfl⟩,
    isView_of_areShown backend areShown named labelled⟩

/-- With purchases first and no kinds, the enum of the kinds of an order is gone as well. -/
theorem resolve_view_orders :
    ∃ whole shown,
      ((Resolver.ofGraph Profile.java.primitive? {}
        (orderGraph (.scalar (.text "retail")))).resolve "java").outcome = .ok whole ∧
      ((Resolver.ofGraph Profile.java.primitive?
        { globalIgnoreFields := ["kind"], orderClasses := ["Purchase"] }
        (orderGraph (.scalar (.text "retail")))).resolve "java").outcome = .ok shown ∧
      Model.IsView { globalIgnoreFields := ["kind"], orderClasses := ["Purchase"] }
        (orderGraph (.scalar (.text "retail"))).names whole shown := by
  have resolved : ∃ whole, ((Resolver.ofGraph Profile.java.primitive? {}
      (orderGraph (.scalar (.text "retail")))).resolve "java").outcome = .ok whole :=
    ⟨_, by cbv⟩
  obtain ⟨whole, returned⟩ := resolved
  have keyed := (orderGraph_isBuilt (.scalar (.text "retail"))).wellFormed.keyed
  have nonempty : "" ∉
      ({ globalIgnoreFields := ["kind"], orderClasses := ["Purchase"] } :
        Config).globalIgnoreFields := by
    decide
  obtain ⟨shown, returned', view⟩ := resolve_view keyed nonempty returned
  exact ⟨whole, shown, returned, returned', view⟩

end TypeGraph

end RamlTypes
