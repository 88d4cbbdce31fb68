import RamlTypes.Command.Arguments
import RamlTypes.Overrides
import RamlTypes.Yaml.Reader

/-!
# Libraries

What the command leaves to others: making sense of its arguments, and reading YAML. The order in
which sets are gone through is not its own choice either, and may be another one in every run.
-/

namespace RamlTypes.Command

structure Libraries where
  /-- Reads an argument list, told which names are those of files or directories. -/
  readArguments : (String → Bool) → List String → Invocation
  readYaml : String → Except Yaml.Failure Value
  setOrder : SetOrder

/-- The libraries that the program itself comes with. -/
def Libraries.provided : Libraries := ⟨readInvocation, Yaml.parse, .firstSeen⟩

end RamlTypes.Command
