import RamlTypes.Schema.Facet
import RamlTypes.Sorting
import RamlTypes.Text.Lower
import RamlTypes.Text.Search
import RamlTypes.Text.Upper

/-!
# Reading a schema from a document

The section `types` declares types, and every key of the document that starts with a slash
declares a resource. The types are read before the resources, both in document order, and the
first defect ends the reading, or the first number that cannot be written where a text is wanted.
-/

namespace RamlTypes.Schema

def readTypeDecl (name : String) : Value → Except ReadFault TypeDecl
  | .scalar .null => .ok ⟨none, none, .empty, none, ""⟩
  | .scalar (.text type) => .ok ⟨some type, none, .empty, none, ""⟩
  | .map entries => do
      let path := ["types", name]
      let properties ← readSection path "properties" (Entries.facet? "properties" entries)
      let enum ← readEnum path (Entries.facet? "enum" entries)
      let type ← readType path (Entries.facet? "type" entries)
      let keyed ← properties.mapM fun (key, value) => do return (← readKey key, value)
      let description ← readText (Entries.facet? "description" entries)
      let items ← readItems path (Entries.facet? "items" entries)
      return {
        type, items, enum, description
        properties := .ofList keyed }
  | value => reject (.typeDeclaration value.kindName) ["types", name]

/-- Media types whose name mentions JSON come first, then the order is that of the names. -/
def mediaTypeLe (a b : Scalar × Value) : Bool :=
  let isJson (entry : Scalar × Value) := Text.occursIn "json".toList entry.1.display.toList
  if isJson a = isJson b then decide (a.1.display ≤ b.1.display) else isJson a

/-- The type of the first usable media type: a text, or a mapping with a `type`. The texts of all
keys are known by then. -/
def firstMediaType (path : Path) : Entries → Except ReadFault String
  | [] => .ok ""
  | (_, .scalar (.text type)) :: _ => .ok type
  | (key, .map declaration) :: rest =>
      match Entries.facet? "type" declaration with
      | some type => (·.getD "") <$> readType (path ++ [key.display]) (some type)
      | none => firstMediaType path rest
  | _ :: rest => firstMediaType path rest

/-- The type that a body declares, empty if it declares none. -/
def bodyType (path : Path) : Option Value → Except ReadFault String
  | none => .ok ""
  | some (.scalar .null) => .ok ""
  | some (.scalar (.text type)) => .ok type
  | some (.map entries) =>
      match Entries.facet? "type" entries with
      | some type => (·.getD "") <$> readType path (some type)
      | none => do
          let _ ← entries.mapM fun entry => readKey entry.1
          firstMediaType path (sortWith mediaTypeLe entries)
  | some _ => reject (.notMapping "body") path

/-- The types of the responses that are mappings and declare one. -/
def responseTypes (path : Path) : Entries → Except ReadFault (List String)
  | [] => .ok []
  | (code, .map response) :: rest => do
      let code ← readKey code
      let type ← bodyType (path ++ ["responses", code]) (Entries.facet? "body" response)
      let types ← responseTypes path rest
      return if type = "" then types else type :: types
  | _ :: rest => responseTypes path rest

def readMethod (path : Path) (key : String) (body : Value) : Except ReadFault Method := do
  let entries ← match body with
    | .map entries => pure entries
    | _ => if body.isVacant then pure [] else reject .methodNotMapping path
  let displayName ← readText (Entries.facet? "displayName" entries)
  let requestType ← bodyType path (Entries.facet? "body" entries)
  let responses ← readSection path "responses" (Entries.facet? "responses" entries)
  return {
    verb := String.ofList (Text.upper key.toList)
    displayName, requestType
    responseTypes := ← responseTypes path responses }

/-- The methods that a resource may declare, in lower case. -/
def verbs : List String := ["get", "post", "put", "patch", "delete", "head", "options"]

def isResourceKey (key : String) : Bool := key.toList.head? = some '/'

mutual

def readResource (uri : String) : Value → Except ReadFault Resource
  | .scalar .null => .ok ⟨uri, [], []⟩
  | .map entries => do
      let (methods, children) ← readMembers uri entries
      return ⟨uri, methods, children⟩
  | _ => reject .resourceNotMapping [uri]

/-- The methods and the nested resources of a resource; other keys are passed over. -/
def readMembers (uri : String) :
    List (Scalar × Value) → Except ReadFault (List Method × List Resource)
  | [] => .ok ([], [])
  | (.text key, value) :: rest =>
      if isResourceKey key then do
        let child ← readResource key value
        let (methods, children) ← readMembers uri rest
        return (methods, child :: children)
      else if Text.lower key ∈ verbs then do
        let method ← readMethod [uri, key] key value
        let (methods, children) ← readMembers uri rest
        return (method :: methods, children)
      else readMembers uri rest
  | _ :: rest => readMembers uri rest

end

def readResources : Entries → Except ReadFault (List Resource)
  | [] => .ok []
  | (.text key, value) :: rest =>
      if isResourceKey key then do
        let resource ← readResource key value
        return resource :: (← readResources rest)
      else readResources rest
  | _ :: rest => readResources rest

def ofDocument (document : Entries) : Except ReadFault Schema := do
  let title ← readText (Entries.facet? "title" document)
  let declarations ← readSection ["types"] "types" (Entries.facet? "types" document)
  let types ← declarations.mapM fun (key, declaration) => do
    let name ← readKey key
    return (name, ← readTypeDecl name declaration)
  let resources ← readResources document
  return { title, types := .ofList types, resources }

end RamlTypes.Schema
