/-!
# Requests

What the command can be asked for. A request names the files that it is about; the language and the
annotation style are as they were asked for.
-/

namespace RamlTypes.Command

/-- A request to resolve a document. -/
structure Request where
  config : Option String
  language : String
  annotations : String
  verbose : Bool
  input : Option String
  /-- Where the model is written to, if it is not printed. -/
  output : Option String
deriving DecidableEq, Repr

/-- What an argument list asks for. -/
inductive Invocation where
  | help
  | misuse
  | request (request : Request)
deriving DecidableEq, Repr

end RamlTypes.Command
