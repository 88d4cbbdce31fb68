import RamlTypes.Document.Value
import RamlTypes.Json.SyntaxError
import RamlTypes.Table

/-!
# Schemas

A schema is what a document declares before any type expression is read: the declared types with
their facets as written, and the tree of resources with the payload types of their methods.
-/

namespace RamlTypes

/-- A place in a document, as the names that lead to it. -/
abbrev Path := List String

def Path.text (path : Path) : String := "/".intercalate path

/-- What can be wrong with a document or one of its declarations. -/
inductive Defect where
  | notMapping (part : String)
  | enumNotList
  | requiredNotBoolean
  | typeDeclaration (kind : String)
  | propertyDeclaration (kind : String)
  | severalParents (parents : List Value)
  | typeNotText (kind : String)
  | resourceNotMapping
  | methodNotMapping
  | enumLiteral (literal : Value)
  | documentNotMapping
  | notJson (error : Json.SyntaxError) (text : String)
  | malformed

def Defect.message : Defect → String
  | notMapping part => "'" ++ part ++ "' must be a mapping"
  | enumNotList => "'enum' must be a list"
  | requiredNotBoolean => "'required' must be a boolean"
  | typeDeclaration kind => "Unsupported type declaration of kind " ++ kind
  | propertyDeclaration kind => "Unsupported property declaration of kind " ++ kind
  | severalParents parents =>
      "Multiple inheritance is not supported: " ++ (Value.list parents).display
  | typeNotText kind => "'type' must be a string, got " ++ kind
  | resourceNotMapping => "Resource must be a mapping"
  | methodNotMapping => "Method must be a mapping"
  | enumLiteral literal => "Unsupported enum literal " ++ literal.quoted
  | documentNotMapping => "Schema document must be a mapping"
  | notJson error text => "Cannot load schema document: " ++ error.message text
  | malformed => "Cannot load schema document"

/-- A defect and where it was found. -/
structure SchemaError where
  defect : Defect
  path : Path

def SchemaError.message (error : SchemaError) : String :=
  if error.path.text = "" then error.defect.message
  else error.path.text ++ ": " ++ error.defect.message

/-- Why a document is not read as a schema. -/
inductive ReadFault where
  | defect (error : SchemaError)
  /-- The text of a number is asked for that has too many digits to be written. -/
  | longNumber

/-- A declared type with its facets as written. -/
structure TypeDecl where
  type : Option String
  items : Option String
  properties : Table String Value
  enum : Option (List Value)
  description : String

/-- A method of a resource with the types of its payloads; an empty type stands for none. -/
structure Method where
  verb : String
  displayName : String
  requestType : String
  responseTypes : List String
deriving Repr, DecidableEq

/-- The types of all payloads of a method, the request first. -/
def Method.payloadTypes (method : Method) : List String :=
  (method.requestType :: method.responseTypes).filter (· ≠ "")

structure Resource where
  uri : String
  methods : List Method
  children : List Resource

mutual

/-- A resource and everything below it, itself first. -/
def Resource.walk : Resource → List Resource
  | ⟨uri, methods, children⟩ => ⟨uri, methods, children⟩ :: Resource.walkAll children

def Resource.walkAll : List Resource → List Resource
  | [] => []
  | child :: rest => child.walk ++ Resource.walkAll rest

end

structure Schema where
  title : String
  types : Table String TypeDecl
  resources : List Resource

end RamlTypes
