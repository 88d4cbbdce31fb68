import RamlTypes.Proofs.CommandRuns
import RamlTypes.Proofs.EnumReferences
import RamlTypes.Proofs.Losses
import RamlTypes.Proofs.MappingFailures

/-!
# Printed models

The model that a run prints or writes is a JSON text exactly when all numbers in it are finite.
These are the literals of the types that are resolved and of their effective properties that are not
ignored, and the numbers in what unions are typed as whose members share no ancestor. Documents can
have other numbers there, as decimals that are too large or by name, and so can settings.
-/
namespace RamlTypes

/-- The literal is one of the type of the name, or of an effective property of it that is not
ignored. -/
def TypeGraph.HasLiteral (g : TypeGraph) (options : Options) (name : String) (literal : Value) :
    Prop :=
  (∃ node literals, g.node? name = some node ∧ node.literals = some literals ∧
    literal ∈ literals) ∨
  ∃ key p literals, options.Shows key ∧ g.IsEffective name key p ∧ p.literals = some literals ∧
    literal ∈ literals

/-- The number is a member of one of the enums. -/
def HasNumber (enums : List EnumDef) (x : Double) : Prop :=
  ∃ e ∈ enums, ∃ member ∈ e.members, member.value = .float x

/-- A number becomes a number, and nothing else does. -/
theorem Literal.ofValue?_eq_float {value : Value} {x : Double} :
    Literal.ofValue? value = some (.float x) ↔ value = .scalar (.float x) := by
  match value with
  | .scalar .null | .scalar (.bool _) | .scalar (.int _) | .scalar (.float _)
  | .scalar (.text _) | .scalar (.timestamp _) | .scalar (.bytes _) | .list _ | .map _ | .set _
  | .pair _ _ => simp [Literal.ofValue?]

variable {x : Double}

theorem hasNumber_append {enums enums' : List EnumDef} :
    HasNumber (enums ++ enums') x ↔ HasNumber enums x ∨ HasNumber enums' x := by
  simp [HasNumber, or_and_right, exists_or]

theorem hasNumber_flatMap {α : Type} {as : List α} {enums : α → List EnumDef} :
    HasNumber (as.flatMap enums) x ↔ ∃ a ∈ as, HasNumber (enums a) x := by
  simp only [HasNumber, List.mem_flatMap]
  constructor
  · rintro ⟨e, ⟨a, listed, inside⟩, number⟩
    exact ⟨a, listed, e, inside, number⟩
  · rintro ⟨a, listed, e, inside, number⟩
    exact ⟨e, ⟨a, listed, inside⟩, number⟩

/-- An enum has the numbers among its literals. -/
theorem hasNumber_enumOf {owner propertyName : String} {literals : Option (List Value)}
    {type : TypeExpr} {enum : Option EnumDef}
    (made : (Resolver.enumOf owner propertyName literals type).outcome = .ok enum) :
    HasNumber enum.toList x ↔ ∃ values, literals = some values ∧ .scalar (.float x) ∈ values := by
  cases enum with
  | none =>
    have absent : literals = none := by simpa using (enumOf_isSome made).symm
    simp [HasNumber, absent]
  | some e =>
    obtain ⟨values, rfl, lists⟩ := enumOf_lists made
    simp only [HasNumber, Option.toList_some, List.mem_singleton, exists_eq_left,
      Option.some.injEq, exists_eq_left']
    constructor
    · rintro ⟨member, listed, number⟩
      obtain ⟨value, given, accepted⟩ := exists_of_mem_right lists.members listed
      rw [number, Literal.ofValue?_eq_float] at accepted
      exact accepted ▸ given
    · intro given
      obtain ⟨member, listed, accepted⟩ := exists_of_mem_left lists.members given
      exact ⟨member, listed, (Option.some.inj accepted).symm⟩

namespace TypeGraph

variable {g : TypeGraph} {primitive? : String → Option String} {options : Options} {name : String}

/-- The enums of properties that were resolved have the numbers among the literals of these. No
property with literals is dropped. -/
theorem hasNumber_of_fields {r : Resolver} {properties : List Property}
    {results : List (Except FieldWarning FieldResolution)}
    (resolved : properties.mapM (fun p => (r.resolveField name p).outcome) = .ok results) :
    HasNumber ((keptOf results).filterMap (·.enum)) x ↔ ∃ p ∈ properties, ∃ values,
      p.literals = some values ∧ .scalar (.float x) ∈ values := by
  constructor
  · rintro ⟨e, made, number⟩
    obtain ⟨resolution, listed, present⟩ := List.mem_filterMap.mp made
    obtain ⟨p, given, kept⟩ := source_of_mem resolved (mem_keptOf.mp listed)
    refine ⟨p, given, (hasNumber_enumOf (Resolver.resolveField_enum kept)).mp ⟨e, ?_, number⟩⟩
    exact Option.mem_toList.mpr present
  · rintro ⟨p, given, values, literals, listed⟩
    obtain ⟨result, there, returned⟩ := result_of_mem resolved given
    -- A property with literals is mapped to an enum, so no warning drops it.
    have enum : p.isEnum = true := by simp [Property.isEnum, literals]
    have mapped := congrArg Logged.outcome (r.mapper.mapProperty_enum enum name)
    obtain ⟨resolution, rfl⟩ := resolveField_mapped mapped returned
    obtain ⟨e, present, number⟩ :=
      (hasNumber_enumOf (Resolver.resolveField_enum returned)).mpr ⟨values, literals, listed⟩
    exact ⟨e, List.mem_filterMap.mpr ⟨_, mem_keptOf.mpr there, Option.mem_toList.mp present⟩,
      number⟩

theorem resolveClass_hasNumber (keyed : g.Keyed) {resolution : ClassResolution}
    (returned : ((Resolver.withOptions primitive? options g).resolveClass name).outcome =
      .ok resolution) :
    HasNumber resolution.enums x ↔ g.HasLiteral options name (.scalar (.float x)) := by
  obtain ⟨node, found, made⟩ := resolveNode_of_resolveClass returned
  obtain rfl : node.name = name := keyed.of_node? found
  obtain ⟨path, enum, _, properties, fields, walked, built, _, visible, resolved, rfl⟩ :=
    Resolver.resolveNode_ok_iff.mp made
  have line : g.Lineage node.name path := chain_ok_iff.mp walked
  have effective :=
    Lineage.mem_visibleProperties (r := .withOptions primitive? options g) line visible
  rw [Resolver.classWith, hasNumber_append, hasNumber_enumOf built, hasNumber_of_fields resolved]
  -- The literals of the type itself on the left, those of its properties on the right.
  refine or_congr ⟨?_, ?_⟩ ⟨?_, ?_⟩
  · rintro ⟨values, literals, listed⟩
    exact ⟨node, values, found, literals, listed⟩
  · rintro ⟨node', values, found', literals, listed⟩
    cases found.symm.trans found'
    exact ⟨values, literals, listed⟩
  · rintro ⟨p, given, values, literals, listed⟩
    obtain ⟨key, shown, present⟩ := (effective p).mp given
    exact ⟨key, p, values, shown, present, literals, listed⟩
  · rintro ⟨key, p, values, shown, present, literals, listed⟩
    exact ⟨p, (effective p).mpr ⟨key, shown, present⟩, values, literals, listed⟩

/-- The numbers of a model are those among the literals of the types that are resolved. -/
theorem resolve_hasNumber (keyed : g.Keyed) {backend : String} {m : Model}
    (returned : ((Resolver.withOptions primitive? options g).resolve backend).outcome = .ok m) :
    HasNumber m.enums x ↔ ∃ name ∈ g.names, name ∉ options.ignoreClasses ∧
      g.HasLiteral options name (.scalar (.float x)) := by
  obtain ⟨_, order, resolutions, _, resolved, rfl⟩ := Resolver.resolve_ok_iff.mp returned
  rw [Resolver.modelOf, hasNumber_flatMap]
  constructor
  · rintro ⟨resolution, listed, number⟩
    obtain ⟨name, wanted, given⟩ := source_of_mem resolved listed
    obtain ⟨declared, kept⟩ := mem_resolvedNames_iff.mp wanted
    exact ⟨name, declared, kept, (resolveClass_hasNumber keyed given).mp number⟩
  · rintro ⟨name, declared, kept, literal⟩
    obtain ⟨resolution, listed, given⟩ :=
      result_of_mem resolved (mem_resolvedNames_iff.mpr ⟨declared, kept⟩)
    exact ⟨resolution, listed, (resolveClass_hasNumber keyed given).mpr literal⟩

end TypeGraph

/-! ### What unions are typed as -/

namespace Resolver

variable {r : Resolver} {base : Value}

/-- A union in a type is typed as a name or as the universal type. -/
theorem base_of_mapType {type : TypeExpr} {target : TargetType}
    (mapped : (r.mapper.mapType type).outcome = .ok target) (typed : target.HasBase base) :
    (∃ name : String, base = .text name) ∨ base = r.options.universalBaseType := by
  obtain ⟨members, inside⟩ := typed
  obtain ⟨source, _, mapped⟩ := TypeMapper.source_of_isPart inside mapped
  rcases TypeMapper.mapType_cases mapped with ⟨_, made⟩ | ⟨_, _, _, _, _, made⟩ |
    ⟨_, _, _, _, _, _, made⟩ | ⟨_, _, _, _, _, _, shared, made⟩
  · cases made
  · cases made
  · cases made
  · cases made
    exact Hierarchy.commonAncestor_text_or_universal shared

theorem base_of_mapProperty {owner : String} {p : Property} {target : TargetType}
    (mapped : (r.mapper.mapProperty owner p).outcome = .ok target) (typed : target.HasBase base) :
    (∃ name : String, base = .text name) ∨ base = r.options.universalBaseType := by
  cases enum : p.isEnum with
  | true =>
    rw [TypeMapper.mapProperty_enum enum] at mapped
    cases mapped
    exact absurd typed (TargetType.not_hasBase_enumRef _)
  | false =>
    rw [TypeMapper.mapProperty_plain enum] at mapped
    exact base_of_mapType mapped typed

theorem base_of_resolve {backend : String} {m : Model}
    (returned : (r.resolve backend).outcome = .ok m) (typed : m.HasBase base) :
    (∃ name : String, base = .text name) ∨ base = r.options.universalBaseType := by
  obtain ⟨_, order, resolutions, _, resolved, rfl⟩ := resolve_ok_iff.mp returned
  obtain ⟨c, listed, target, inside, typed⟩ := typed
  obtain ⟨resolution, there, rfl⟩ := List.mem_map.mp listed
  obtain ⟨name, _, given⟩ := source_of_mem resolved there
  obtain ⟨node, _, made⟩ := TypeGraph.resolveNode_of_resolveClass given
  obtain ⟨chain, enum, definition, properties, fields, _, _, aliased, _, mapped, rfl⟩ :=
    resolveNode_ok_iff.mp made
  -- The type is the one of a field that was kept, or the definition.
  rcases List.mem_append.mp inside with field | defined
  · obtain ⟨f, present, rfl⟩ := List.mem_map.mp field
    obtain ⟨resolution, kept, same⟩ := List.mem_map.mp present
    obtain ⟨p, _, given⟩ := source_of_mem mapped (mem_keptOf.mp kept)
    subst same
    exact base_of_mapProperty (TypeGraph.resolveField_kept given).2.1 typed
  · have account := (resolveAlias_account aliased).1 target
    obtain ⟨_, mapped⟩ := account.mp (Option.mem_toList.mp defined)
    exact base_of_mapType mapped typed

end Resolver

namespace Command

/-- The text is printed, or it is what the file holds that is named for it. -/
def Outcome.PutsOut (outcome : Outcome) (output : Option String) (text : String) : Prop :=
  match output with
  | none => outcome.stdout = text
  | some file => outcome.stdout = "" ∧ outcome.storage.find? file = some (.file text)

theorem isText_fullText_iff {m : Model} (writable : Json.problem? m.encode = none) :
    Json.IsText (fullText m).toList ↔ (∀ x, HasNumber m.enums x → x.isFinite = true) ∧
      ∀ base, m.HasBase base → ∀ x, base.Holds x → x.isFinite = true := by
  rw [fullText, Json.isText_render_iff writable]
  simp only [Model.holds_encode, HasNumber]
  constructor
  · exact fun finite => ⟨fun x number => finite x (.inl number),
      fun base typed x inside => finite x (.inr ⟨base, typed, inside⟩)⟩
  · rintro ⟨literals, bases⟩ x (number | ⟨base, typed, inside⟩)
    · exact literals x number
    · exact bases base typed x inside

/-- The model that an argument list comes to. -/
def model? (libraries : Libraries) (storage : Storage) (arguments : List String) : Option Model :=
  match invocation libraries storage arguments with
  | .request request => ((Step.makeModel libraries request).result { storage }).toOption
  | _ => none

variable {libraries : Libraries} {storage : Storage} {arguments : List String}

/-- A run that ends with zero puts out the text of the model that its arguments come to. -/
theorem run_putsOut (unasked : invocation libraries storage arguments ≠ .help)
    (completed : (run libraries storage arguments).exitCode = 0) :
    ∃ request m, invocation libraries storage arguments = .request request ∧
      (Step.makeModel libraries request).result { storage } = .ok m ∧
      model? libraries storage arguments = some m ∧ Json.problem? m.encode = none ∧
      (run libraries storage arguments).PutsOut request.output (fullText m) := by
  cases asked : invocation libraries storage arguments with
  | help => exact absurd asked unasked
  | misuse =>
    rw [run, asked] at completed
    cases completed
  | request request =>
    have known {m : Model}
        (resolved : (Step.makeModel libraries request).result { storage } = .ok m) :
        model? libraries storage arguments = some m := by
      rw [model?, asked]
      dsimp only
      rw [resolved]
      rfl
    have ends := ends_run asked
    generalize run libraries storage arguments = outcome at ends completed ⊢
    cases ends with
    | stopped | refused => cases completed
    | printed made unnamed =>
      obtain ⟨m, resolved, writable, rfl⟩ := Step.makeText_returns_iff.mp made
      refine ⟨request, m, rfl, resolved, known resolved, writable, ?_⟩
      rw [unnamed]
      rfl
    | written made named free =>
      obtain ⟨m, resolved, writable, rfl⟩ := Step.makeText_returns_iff.mp made
      refine ⟨request, m, rfl, resolved, known resolved, writable, ?_⟩
      rw [named]
      exact ⟨rfl, (Storage.find?_opened free _).1⟩

/-- A run that ends with zero puts out a JSON text exactly when every number is finite among the
literals of the types that are resolved, and in the universal type if a union is typed as that. -/
theorem run_isText_iff (unasked : invocation libraries storage arguments ≠ .help)
    (completed : (run libraries storage arguments).exitCode = 0) :
    ∃ request settings document profile options g m text,
      invocation libraries storage arguments = .request request ∧
      (Step.readSettings request.config).result { storage } = .ok settings ∧
      (Step.readDocument libraries request.input).result { storage } = .ok document ∧
      Profile.forLanguage? request.language = some profile ∧
      settings.options libraries.setOrder profile request.annotations = .ok options ∧
      (readGraph document).outcome = .ok g ∧
      ((Resolver.withOptions profile.primitive? options g).resolve profile.language).outcome =
        .ok m ∧
      (run libraries storage arguments).PutsOut request.output text ∧
      (Json.IsText text.toList ↔
        (∀ name ∈ g.names, name ∉ options.ignoreClasses → ∀ x,
          g.HasLiteral options name (.scalar (.float x)) → x.isFinite = true) ∧
        (m.HasBase options.universalBaseType → ∀ x,
          options.universalBaseType.Holds x → x.isFinite = true)) := by
  obtain ⟨request, m, asked, made, _, writable, put⟩ := run_putsOut unasked completed
  obtain ⟨settings, document, profile, options, read, loaded, found, given, resolved⟩ :=
    Step.makeModel_returns_iff.mp made
  obtain ⟨g, graphed, returned⟩ := TypeGraph.resolve_of_resolveWith resolved
  have keyed := (TypeGraph.isBuilt_of_readGraph graphed).wellFormed.keyed
  refine ⟨request, settings, document, profile, options, g, m, _, asked, read, loaded, found, given,
    graphed, returned, put, ?_⟩
  rw [isText_fullText_iff writable]
  simp only [TypeGraph.resolve_hasNumber keyed returned]
  refine and_congr ⟨?_, ?_⟩ ⟨?_, ?_⟩
  · exact fun finite name declared kept x literal => finite x ⟨name, declared, kept, literal⟩
  · rintro finite x ⟨name, declared, kept, literal⟩
    exact finite name declared kept x literal
  · exact fun finite typed => finite _ typed
  · intro finite base typed x inside
    -- Names hold no numbers.
    rcases Resolver.base_of_resolve returned typed with ⟨name, rfl⟩ | rfl
    · cases inside
    · exact finite typed x inside

/-! ### Levels -/

theorem base_of_makeModel {request : Request} {w : World} {m : Model} {base : Value}
    (made : (Step.makeModel libraries request).result w = .ok m) (typed : m.HasBase base) :
    (∃ name : String, base = .text name) ∨ ∃ settings,
      (Step.readSettings request.config).result w = .ok settings ∧
        base = settings.universalBaseType := by
  obtain ⟨settings, document, profile, options, read, _, _, given, resolved⟩ :=
    Step.makeModel_returns_iff.mp made
  obtain ⟨g, _, returned⟩ := TypeGraph.resolve_of_resolveWith resolved
  rcases Resolver.base_of_resolve returned typed with named | rfl
  · exact .inl named
  · rcases Settings.universalBaseType_of_options given with same | default
    · exact .inr ⟨settings, read, same⟩
    · exact .inl ⟨"Object", default⟩

/-- The literals of the enums of a model, one enum after the other. -/
def literalsOf (m : Model) : List Literal := m.enums.flatMap fun e => e.members.map (·.value)

theorem hasNumber_iff_mem_literalsOf {m : Model} {x : Double} :
    HasNumber m.enums x ↔ .float x ∈ literalsOf m := by
  simp [HasNumber, literalsOf]

/-- Levels have a type of their own, with a decimal among them. -/
def levelFiles : Storage := Storage.ofFiles
  [("api.json", "\x7b\"types\": \x7b\"Level\": \x7b\"enum\": [0.5, 3, \"größer\"]\x7d\x7d\x7d")]

def levelRequest : Request := ⟨none, "java", "", false, some "api.json", none⟩

theorem run_isText_iff_levels :
    invocation .provided levelFiles ["api.json"] = .request levelRequest ∧
      (run .provided levelFiles ["api.json"]).exitCode = 0 ∧
      ∃ (options : Options) (g : TypeGraph) (m : Model) (text : String),
        (run .provided levelFiles ["api.json"]).stdout = text ∧ Json.IsText text.toList ∧
        (∀ name ∈ g.names, name ∉ options.ignoreClasses → ∀ x,
          g.HasLiteral options name (.scalar (.float x)) → x.isFinite = true) ∧
        (m.HasBase options.universalBaseType → ∀ x,
          options.universalBaseType.Holds x → x.isFinite = true) := by
  have asked : invocation .provided levelFiles ["api.json"] = .request levelRequest := by
    decide +kernel
  have unasked : invocation .provided levelFiles ["api.json"] ≠ .help := by
    rw [asked]
    exact Invocation.noConfusion
  have completed : (run .provided levelFiles ["api.json"]).exitCode = 0 := by decide +kernel
  have literals : (model? .provided levelFiles ["api.json"]).map literalsOf =
      some [.float (.finite false (Nat.pow 2 52) (-53)), .int 3, .text "größer"] := by
    decide +kernel
  obtain ⟨_, m, asked', made, model, writable, put⟩ := run_putsOut unasked completed
  obtain ⟨_, _, _, _, options, g, m', text, asked'', _, _, _, _, _, _, put', finite⟩ :=
    run_isText_iff unasked completed
  cases asked.symm.trans asked'
  cases asked.symm.trans asked''
  obtain rfl : fullText m = text := put.symm.trans put'
  rw [model, Option.map_some, Option.some.injEq] at literals
  have text : Json.IsText (fullText m).toList := by
    refine (isText_fullText_iff writable).mpr ⟨fun x number => ?_, fun base typed x inside => ?_⟩
    · rw [hasNumber_iff_mem_literalsOf, literals] at number
      simp only [List.mem_cons, Literal.float.injEq, reduceCtorEq, List.not_mem_nil,
        or_false] at number
      rw [number]
      rfl
    · -- Without settings, the universal type is a name as well.
      rcases base_of_makeModel made typed with ⟨name, rfl⟩ | ⟨settings, read, rfl⟩
      · cases inside
      · cases read
        cases inside
  exact ⟨asked, completed, options, g, m', _, put, text, finite.mp text⟩

/-- One of the levels is above all double-precision numbers. -/
def highLevelFiles : Storage := Storage.ofFiles
  [("api.json", "\x7b\"types\": \x7b\"Level\": \x7b\"enum\": [0.5, 1e999]\x7d\x7d\x7d")]

/-- A document that is a JSON text itself is resolved to a model that is put out as none. -/
theorem run_highLevels_not_isText :
    invocation .provided highLevelFiles ["api.json"] = .request levelRequest ∧
      (run .provided highLevelFiles ["api.json"]).exitCode = 0 ∧
      ¬ Json.IsText (run .provided highLevelFiles ["api.json"]).stdout.toList := by
  have asked : invocation .provided highLevelFiles ["api.json"] = .request levelRequest := by
    decide +kernel
  have unasked : invocation .provided highLevelFiles ["api.json"] ≠ .help := by
    rw [asked]
    exact Invocation.noConfusion
  have completed : (run .provided highLevelFiles ["api.json"]).exitCode = 0 := by decide +kernel
  have literals : (model? .provided highLevelFiles ["api.json"]).map literalsOf =
      some [.float (.finite false (Nat.pow 2 52) (-53)), .float (.infinite false)] := by
    decide +kernel
  obtain ⟨_, m, asked', _, model, writable, put⟩ := run_putsOut unasked completed
  cases asked.symm.trans asked'
  rw [model, Option.map_some, Option.some.injEq] at literals
  refine ⟨asked, completed, fun text => ?_⟩
  have put : (run .provided highLevelFiles ["api.json"]).stdout = fullText m := put
  rw [put] at text
  have number : HasNumber m.enums (.infinite false) := by
    rw [hasNumber_iff_mem_literalsOf, literals]
    exact List.mem_cons_of_mem _ List.mem_cons_self
  exact absurd (((isText_fullText_iff writable).mp text).1 _ number) (by decide)

end Command

end RamlTypes
