import RamlTypes.FileName
import RamlTypes.Json.Reader
import RamlTypes.Schema.Basic
import RamlTypes.Yaml.Token

/-!
# Loading documents

A file whose name ends in `.json` is read as JSON, any other file as YAML, by whatever reads YAML.
The document is a mapping; nothing at all and null are the empty one.
-/

namespace RamlTypes.Document

/-- A text with every line end turned into a line feed. -/
def withLineFeeds : List Char → List Char
  | [] => []
  | '\r' :: '\n' :: rest => '\n' :: withLineFeeds rest
  | '\r' :: rest => '\n' :: withLineFeeds rest
  | c :: rest => c :: withLineFeeds rest

/-- The text of a file as it is read. -/
def fileText (contents : String) : String := String.ofList (withLineFeeds contents.toList)

/-- Whether a file name has the suffix of JSON files, in lower case and behind another character. -/
def isJsonFile (name : String) : Bool :=
  let base := FileName.base name
  ".json".toList.isSuffixOf base && base.length > 5

/-- Why a file holds no document. -/
inductive LoadFailure where
  | defect (error : SchemaError)
  | badScalar (problem : BadScalar)

/-- The failure for what is wrong with a whole file. -/
def LoadFailure.ofFile (name : String) (defect : Defect) : LoadFailure := .defect ⟨defect, [name]⟩

section Load

variable (readYaml : String → Except Yaml.Failure Value)

def readValue (name text : String) : Except LoadFailure Value :=
  if isJsonFile name then
    (Json.parse text).mapError fun
      | .notJson error => .ofFile name (.notJson error text)
      | .badScalar problem => .badScalar problem
  else
    (readYaml text).mapError fun
      | .malformed => .ofFile name .malformed
      | .badScalar problem => .badScalar problem

/-- The document that a file holds. Failures show the name in its plain form. -/
def load (name contents : String) : Except LoadFailure Entries :=
  let name := FileName.plain name
  match readValue readYaml name (fileText contents) with
  | .error failure => .error failure
  | .ok (.map entries) => .ok entries
  | .ok (.scalar .null) => .ok []
  | .ok _ => .error (.ofFile name .documentNotMapping)

end Load

end RamlTypes.Document
