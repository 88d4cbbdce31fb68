import RamlTypes.Proofs.JsonTexts
import RamlTypes.Proofs.ParallelRuns
import RamlTypes.Proofs.RequiredOverrides
import RamlTypes.Settings

/-!
# Options of a run

A run takes its options from settings of any kind. Settings of the wanted kinds give the options
that a configuration has. The order of sets is none of the settings, and may be another one in every
run: it decides about the order of names that a field requires and that share their title case, and
about nothing else in a model.
-/
namespace RamlTypes

open Text

/-! ### Settings of the wanted kinds -/

/-- The settings that a configuration stands for. -/
def Config.settings (config : Config) : Settings where
  ignoreClasses := some (.texts config.ignoreClasses)
  globalIgnoreFields := some (.texts config.globalIgnoreFields)
  orderClasses := some (.texts config.orderClasses)
  annotations := config.annotations
  universalBaseType := config.universalBaseType
  legacyRequiredOverrides := .bool config.legacyRequiredOverrides

theorem Value.names_texts (names : List String) : Value.names (names.map .text) = names := by
  induction names with
  | nil => rfl
  | cons name rest ih => exact congrArg (name :: ·) ih

@[simp]
theorem Value.members_texts (names : List String) :
    (Value.texts names).members = .ok (names.map .text) := rfl

@[simp]
theorem Value.search_texts (names : List String) :
    (Value.texts names).search = .ok names.contains := by
  change Except.ok (Value.names (names.map .text)).contains = _
  rw [names_texts]

theorem Config.withStyle_settings (config : Config) (requested : String) :
    config.settings.withStyle requested = .ok (if requested = "" then config
      else { config with annotations := requested }).settings := by
  unfold Settings.withStyle
  split <;> rfl

/-- The settings of a configuration give the options that a run with it has. -/
theorem Config.options_settings (config : Config) (profile : Profile) (requested : String) :
    config.settings.options config.setOrder profile requested =
      .ok (effectiveConfig profile requested config).options := by
  have rule : (if (Value.bool config.legacyRequiredOverrides).isVacant then
      .difference config.setOrder else .suffix) = config.overrideRule := by
    rw [overrideRule]
    cases config.legacyRequiredOverrides <;> rfl
  have copied (config : Config) : config.settings.copy = .ok config.settings := rfl
  rw [Settings.options, withStyle_settings, effectiveConfig, ok_bind, copied]
  by_cases unasked : requested = "" <;>
    simp [unasked, settings, Settings.present, Settings.readStyle, Value.names_texts, rule,
      options, Profile.configure, overrideRule]

/-! ### Other orders of sets -/

/-- The lists have the same names, and the same title cases in the same places. So names that share
their title case may have changed places, and no other ones. -/
structure SameButTies (names names' : List String) : Prop where
  perm : names'.Perm names
  titleCases : names'.map titleCase = names.map titleCase

theorem SameButTies.refl (names : List String) : SameButTies names names := ⟨.refl _, rfl⟩

/-- The rules are the same one, which may go through sets in different orders. -/
inductive OverrideRule.SameButOrder : OverrideRule → OverrideRule → Prop where
  | suffix : SameButOrder .suffix .suffix
  | difference (order order' : SetOrder) : SameButOrder (.difference order) (.difference order')

/-- The fields differ in the order of overrides that share their title case. -/
structure ResolvedField.SameButTies (f f' : ResolvedField) : Prop where
  same : f' = { f with requiredOverrides := f'.requiredOverrides }
  overrides : RamlTypes.SameButTies f.requiredOverrides f'.requiredOverrides

structure ResolvedClass.SameButTies (c c' : ResolvedClass) : Prop where
  same : c' = { c with fields := c'.fields }
  fields : List.Forall₂ ResolvedField.SameButTies c.fields c'.fields

structure Model.SameButTies (m m' : Model) : Prop where
  same : m' = { m with classes := m'.classes }
  classes : List.Forall₂ ResolvedClass.SameButTies m.classes m'.classes

/-- The options differ in the order of sets. -/
def Options.SameButOrder (options options' : Options) : Prop :=
  ∃ rule, options' = { options with overrideRule := rule } ∧ options.overrideRule.SameButOrder rule

namespace Settings

variable {settings : Settings} {order order' : SetOrder} {profile : Profile} {requested : String}

/-- Settings are copied as they are, or as the ones that hold without a file. -/
theorem copy_cases {kept : Settings} (copied : settings.copy = .ok kept) :
    kept = settings ∨ kept = {} := by
  unfold copy at copied
  split at copied
  · simp only [bind_ok_iff] at copied
    obtain ⟨_, _, _, _, _, _, same⟩ := copied
    cases same
    exact .inl rfl
  · cases copied
    exact .inr rfl
  · cases copied
  · cases copied

/-- A requested style changes no other option, unless the settings are copied as if there was no
file. -/
theorem withStyle_cases {styled : Settings} (asked : settings.withStyle requested = .ok styled) :
    ∃ annotations, styled = { settings with annotations } ∨ styled = { annotations } := by
  unfold withStyle at asked
  split at asked
  · cases asked
    exact ⟨settings.annotations, .inl rfl⟩
  · obtain ⟨kept, copied, rfl⟩ := (map_ok_iff _ _ _).mp asked
    rcases copy_cases copied with rfl | rfl
    · exact ⟨requested, .inl rfl⟩
    · exact ⟨requested, .inr rfl⟩

/-- What is left of the settings when the options are made from them. -/
theorem kept_cases {styled kept : Settings} (asked : settings.withStyle requested = .ok styled)
    (copied : styled.copy = .ok kept) :
    ∃ annotations, kept = { settings with annotations } ∨ kept = { annotations } := by
  rcases copy_cases copied with rfl | rfl
  · exact withStyle_cases asked
  · exact ⟨"", .inr rfl⟩

theorem universalBaseType_of_options {options : Options}
    (given : settings.options order profile requested = .ok options) :
    options.universalBaseType = settings.universalBaseType ∨
      options.universalBaseType = "Object" := by
  simp only [Settings.options, bind_ok_iff] at given
  obtain ⟨styled, asked, _, _, _, _, _, _, kept, copied, made⟩ := given
  cases made
  obtain ⟨_, rfl | rfl⟩ := kept_cases asked copied
  · exact .inl rfl
  · exact .inr rfl

variable (settings order order' profile requested)

end Settings

namespace Json

theorem problem?_texts (names : List String) : problem? (.texts names) = none := by
  simp [Value.texts, problem?, problemOf?_eq_none_iff, scalarProblem?, Scalar.isPrintable]

theorem problemOf?_congr {values values' : List Value}
    (alike : List.Forall₂ (fun v v' => problem? v' = problem? v) values values') :
    problemOf? values' = problemOf? values := by
  induction alike with
  | nil => rfl
  | cons here _ ih => rw [problemOf?, problemOf?, here, ih]

end Json

theorem ResolvedField.SameButTies.problem?_eq {f f' : ResolvedField} (alike : f.SameButTies f') :
    Json.problem? f'.encode = Json.problem? f.encode := by
  rw [alike.same]
  simp [encode, Value.record, Json.problem?, Json.problemIn?, Json.problem?_texts]

/-- Lists can be written alike if their items can. -/
theorem problem?_list_congr {α : Type} {encode : α → Value} {xs xs' : List α}
    (alike : List.Forall₂
      (fun x x' => Json.problem? (encode x') = Json.problem? (encode x)) xs xs') :
    Json.problem? (.list (xs'.map encode)) = Json.problem? (.list (xs.map encode)) :=
  Json.problemOf?_congr (List.forall₂_map_left_iff.mpr (List.forall₂_map_right_iff.mpr alike))

theorem ResolvedClass.SameButTies.problem?_eq {c c' : ResolvedClass} (alike : c.SameButTies c') :
    Json.problem? c'.encode = Json.problem? c.encode := by
  have fields := problem?_list_congr (alike.fields.imp fun _ _ same => same.problem?_eq)
  rw [alike.same]
  simp [encode, Value.record, Json.problem?, Json.problemIn?] at fields ⊢
  rw [fields]

namespace Model.SameButTies

variable {m m' : Model} (alike : m.SameButTies m')

include alike

theorem problem?_eq : Json.problem? m'.encode = Json.problem? m.encode := by
  have classes := problem?_list_congr (alike.classes.imp fun _ _ same => same.problem?_eq)
  rw [alike.same]
  simp [encode, Value.record, Json.problem?, Json.problemIn?] at classes ⊢
  rw [classes]

end Model.SameButTies

end RamlTypes
