import RamlTypes.Overrides
import RamlTypes.Text.Lower

/-!
# Configuration

The options of a resolution. The annotation style enables deserializers when it is not empty.
-/

namespace RamlTypes

/-- The known annotation styles. -/
def annotationStyles : List String := ["jackson", "gson"]

/-- An annotation style in lower case; unknown ones are dropped. -/
def normalizeAnnotations (annotations : String) : String :=
  if Text.lower annotations ∈ annotationStyles then Text.lower annotations else ""

structure Config where
  /-- Types that are left out of the model. -/
  ignoreClasses : List String := []
  /-- Fields that are left out of every class. -/
  globalIgnoreFields : List String := []
  /-- Types that come first in the model. -/
  orderClasses : List String := []
  annotations : String := ""
  /-- The common ancestor of types that share none. -/
  universalBaseType : String := "Object"
  legacyRequiredOverrides : Bool := true
  /-- How the run goes through sets. This is no option, and nothing that is set. -/
  setOrder : SetOrder := .firstSeen
deriving Inhabited

namespace Config

def overrideRule (config : Config) : OverrideRule :=
  if config.legacyRequiredOverrides then .suffix else .difference config.setOrder

end Config

end RamlTypes
