import RamlTypes.Config
import RamlTypes.Fault

/-!
# Options

What a resolution asks of its options. The names that come first and the fields that are ignored may
be given as values that cannot be gone through; that is not noticed before they are needed.
-/

namespace RamlTypes

structure Options where
  ignoreClasses : List String
  /-- The types that come first in the model. -/
  orderClasses : Except Misfit (List String)
  /-- Whether a field of a name is left out of every class. -/
  ignoresField : Except Misfit (String → Bool)
  annotations : String
  /-- What unions are typed as whose members share no ancestor. -/
  universalBaseType : Value
  overrideRule : OverrideRule

def Config.options (config : Config) : Options where
  ignoreClasses := config.ignoreClasses
  orderClasses := .ok config.orderClasses
  ignoresField := .ok config.globalIgnoreFields.contains
  annotations := config.annotations
  universalBaseType := config.universalBaseType
  overrideRule := config.overrideRule

end RamlTypes
