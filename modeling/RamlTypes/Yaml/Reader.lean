import RamlTypes.Yaml.Node.Parser
import RamlTypes.Yaml.Node.Value
import RamlTypes.Yaml.Token.Lexer

/-!
# Reading YAML
-/

namespace RamlTypes.Yaml

/-- The value of the document in a text; null if there is none. -/
def parse (text : String) : Except Failure Value := do
  match tokens? text with
  | some tokens => (← Node.ofTokens tokens).value.mapError Prod.snd
  | none => throw .malformed

end RamlTypes.Yaml
