import RamlTypes.Options
import RamlTypes.Profile
import RamlTypes.Text.Search

/-!
# Settings

The options as a file sets them. A value of any kind is taken for any option, and whether it can be
used is found out where it is used: text takes the place of a list as that of its characters, a
mapping as that of its keys, and what has no members is a misfit. A file can also set all options at
once, or the record by which they are copied.
-/

namespace RamlTypes

namespace Value

/-- The members of a value in order. -/
def members : Value → Except Misfit (List Value)
  | .scalar (.text s) => .ok (s.toList.map fun c => .text (String.singleton c))
  | .scalar (.bytes value) => .ok (value.map fun byte => .scalar (.int byte.toNat))
  | .scalar s => .error (.notIterable s.typeName)
  | .list items => .ok items
  | .map entries => .ok (entries.map fun entry => .scalar entry.1)
  | .set items => .ok (items.map .scalar)
  | .pair first second => .ok [first, second]

/-- The texts among some values. -/
def names (values : List Value) : List String :=
  values.filterMap fun
    | .scalar (.text name) => some name
    | _ => none

/-- Whether a name is in a value. In a text it is looked for as a part. -/
def search : Value → Except Misfit (String → Bool)
  | .scalar (.text s) => .ok fun name => Text.occursIn name.toList s.toList
  | .scalar (.bytes _) => .error .noBytes
  | .scalar s => .error (.noContainer s.typeName)
  | other => (fun values => (names values).contains) <$> other.members

end Value

/-- The values that the options are set to. A list is missing where all options have been set at
once without it. -/
structure Settings where
  ignoreClasses : Option Value := some (.list [])
  globalIgnoreFields : Option Value := some (.list [])
  orderClasses : Option Value := some (.list [])
  annotations : Value := ""
  universalBaseType : Value := "Object"
  legacyRequiredOverrides : Value := .scalar (.bool true)
  /-- What is set in place of the record of the options that are to be copied. -/
  fields : Option Value := none
deriving Inhabited

namespace Settings

/-- All options at once. What is left out has the value that holds without settings, unless it is a
list. -/
def ofAll (entries : Entries) : Settings where
  ignoreClasses := entries.facet? "ignore_classes"
  globalIgnoreFields := entries.facet? "global_ignore_fields"
  orderClasses := entries.facet? "order_classes"
  annotations := (entries.facet? "annotations").getD ""
  universalBaseType := (entries.facet? "universal_base_type").getD "Object"
  legacyRequiredOverrides :=
    (entries.facet? "legacy_required_overrides").getD (.scalar (.bool true))
  fields := entries.facet? "__dataclass_fields__"

/-- Sets one option by its name. Unknown ones are passed over, and so are lists that are missing. -/
def set (settings : Settings) (key : Scalar) (value : Value) : Except Misfit Settings :=
  match key with
  | .text "ignore_classes" =>
      .ok { settings with ignoreClasses := settings.ignoreClasses.map fun _ => value }
  | .text "global_ignore_fields" =>
      .ok { settings with globalIgnoreFields := settings.globalIgnoreFields.map fun _ => value }
  | .text "order_classes" =>
      .ok { settings with orderClasses := settings.orderClasses.map fun _ => value }
  | .text "annotations" => .ok { settings with annotations := value }
  | .text "universal_base_type" => .ok { settings with universalBaseType := value }
  | .text "legacy_required_overrides" => .ok { settings with legacyRequiredOverrides := value }
  | .text "__dataclass_fields__" => .ok { settings with fields := value }
  | .text "__dict__" =>
      match value with
      | .map entries => .ok (ofAll entries)
      | other => .error (.noDictionary other.typeName)
  | .text "__class__" => .error (.noClass value.typeName)
  | .text "__weakref__" => .error (.readOnly "__weakref__")
  | _ => .ok settings

/-- A known annotation style. A value that is missing is none, and so are binary data. -/
def readStyle : Value → Except Misfit String
  | .scalar (.text style) => .ok (normalizeAnnotations style)
  | .scalar (.bytes _) => .ok ""
  | value => if value.isVacant then .ok "" else .error (.noMember value.typeName "lower")

/-- The settings of a mapping, with a known annotation style or none. -/
def ofEntries (entries : Entries) : Except Misfit Settings := do
  let settings ← entries.foldlM (fun settings entry => settings.set entry.1 entry.2) ({} : Settings)
  return { settings with annotations := ← readStyle settings.annotations }

/-- A list that should be there. -/
def present (name : String) : Option Value → Except Misfit Value
  | some value => .ok value
  | none => .error (.noMember "ResolverConfig" name)

/-- The settings as they are copied. Where another record of the options is set, it is the one of no
options at all, or it cannot be read. -/
def copy (settings : Settings) : Except Misfit Settings :=
  match settings.fields with
  | none => do
      let _ ← present "ignore_classes" settings.ignoreClasses
      let _ ← present "global_ignore_fields" settings.globalIgnoreFields
      let _ ← present "order_classes" settings.orderClasses
      return settings
  | some (.map []) => .ok {}
  | some (.map (entry :: _)) => .error (.noMember entry.2.typeName "_field_type")
  | some value => .error (.noMember value.typeName "values")

/-- The settings with a requested annotation style in place of the one that is set. -/
def withStyle (settings : Settings) (requested : String) : Except Misfit Settings :=
  if requested = "" then .ok settings
  else (fun copy => { copy with annotations := requested }) <$> settings.copy

/-- The options that a run for a language works with. -/
def options (settings : Settings) (order : SetOrder) (profile : Profile) (requested : String) :
    Except Misfit Options := do
  let settings ← settings.withStyle requested
  let style ← readStyle settings.annotations
  let ignored ← (← present "ignore_classes" settings.ignoreClasses).members
  let settings ← settings.copy
  return {
    ignoreClasses := profile.withNativeTypes (Value.names ignored)
    orderClasses := do
      return Value.names (← (← present "order_classes" settings.orderClasses).members)
    ignoresField := do
      (← present "global_ignore_fields" settings.globalIgnoreFields).search
    annotations := profile.styleFor requested style
    universalBaseType := settings.universalBaseType
    overrideRule :=
      if settings.legacyRequiredOverrides.isVacant then .difference order else .suffix }

end Settings

end RamlTypes
