import RamlTypes.Schema.Facet
import RamlTypes.TypeExpr.Parser
import RamlTypes.TypeGraph.Basic

/-!
# Building a type graph

A declaration without a type gets an implicit one, and the long form of an array, a type `array`
with `items`, gets the short one. The parent of a type is the declared type that its type
expression names; a name that is not declared is no defect.
-/

namespace RamlTypes.TypeGraph

open Schema

/-- The type text of a declaration, `implicit` being the type of one without `type` and `items`. -/
def typeText (implicit : String) (type items : Option String) : String :=
  let text := type.getD (if items.isSome then "array" else implicit)
  match items with
  | some item =>
      if Text.trimmed text = "array" ∧ item ≠ "" then Text.trimmed item ++ "[]" else text
  | none => text

/-- The name of a property and whether its key makes it required: a question mark at the end of the
key makes it optional. -/
def propertyName (key : String) : String × Bool :=
  if key.toList.getLast? = some '?' then (String.ofList key.toList.dropLast, false) else (key, true)

def readRequired (path : Path) (byKey : Bool) : Option Value → Except ReadFault Bool
  | none => .ok byKey
  | some (.scalar (.bool required)) => .ok required
  | some _ => reject .requiredNotBoolean path

/-- The entries of a nested `properties` mapping. -/
def inlineProperties (entries : Entries) : Entries :=
  match Entries.facet? "properties" entries with
  | some (.map inline) => inline
  | _ => []

theorem sizeOf_inlineProperties_lt (entries : Entries) :
    sizeOf (inlineProperties entries) < sizeOf (Value.map entries) := by
  simp only [inlineProperties]
  split
  · rename_i inline found
    have := sizeOf_facet?_lt found
    simp only [Value.map.sizeOf_spec] at *
    omega
  · have positive : 0 < sizeOf entries := by
      cases entries <;> simp only [List.nil.sizeOf_spec, List.cons.sizeOf_spec] <;> omega
    simp only [List.nil.sizeOf_spec, Value.map.sizeOf_spec]
    omega

mutual

def readProperty (path : Path) (key : String) : Value → Except ReadFault Property
  | .scalar .null => .ok (plain "string")
  | .scalar (.text type) => .ok (plain type)
  | .map entries => do
      let (name, byKey) := propertyName key
      let required ← readRequired path byKey (Entries.facet? "required" entries)
      let _ ← readSection path "properties" (Entries.facet? "properties" entries)
      let children ← readProperties path (inlineProperties entries)
      let literals ← readEnum path (Entries.facet? "enum" entries)
      let type ← readType path (Entries.facet? "type" entries)
      let items ← readItems path (Entries.facet? "items" entries)
      let description ← readText (Entries.facet? "description" entries)
      let implicit := if children.isEmpty then "string" else "object"
      return {
        name, required, children, literals, description
        type := .parse (typeText implicit type items) }
  | value => reject (.propertyDeclaration value.kindName) path
termination_by value => sizeOf value
decreasing_by exact sizeOf_inlineProperties_lt entries
where
  /-- A property declared by its type alone. -/
  plain (type : String) : Property :=
    let (name, required) := propertyName key
    { name, required, type := .parse type, children := [], literals := none, description := "" }

/-- The properties below the declaration at `path`, in order. -/
def readProperties (path : Path) : List (Scalar × Value) → Except ReadFault (List Property)
  | [] => .ok []
  | (key, value) :: rest => do
      let name ← readKey key
      let property ← readProperty (path ++ ["properties", name]) name value
      return property :: (← readProperties path rest)
termination_by entries => sizeOf entries

end

/-- The keywords of the built-in scalar types. -/
def scalarKeywords : List String :=
  ["any", "string", "number", "integer", "boolean", "date-only", "time-only", "datetime-only",
    "datetime", "file", "nil"]

def kindOf (isEnum hasParent : Bool) (type : TypeExpr) : TypeKind :=
  if isEnum then .enum
  else if hasParent then .object
  else match type with
    | .array _ _ _ => .array
    | .union _ _ => .union
    | .map _ _ => .map
    | .named raw _ _ =>
        if raw = "object" then .object
        else if raw ∈ scalarKeywords then .scalar
        else .reference

/-- The declared type that a type expression names as a whole. -/
def parentOf (isDeclared : String → Bool) : TypeExpr → Option String
  | .named raw _ _ => if isDeclared raw then some raw else none
  | _ => none

def readNode (schema : Schema) (name : String) (decl : TypeDecl) :
    Except ReadFault TypeNode := do
  let implicit := if decl.enum.isSome then "string" else "object"
  let type := TypeExpr.parse (typeText implicit decl.type decl.items)
  let parent := parentOf schema.types.contains type
  let properties ← decl.properties.entries.mapM fun (key, value) =>
    readProperty ["types", name, "properties", key] key value
  return {
    name, parent, type
    kind := kindOf decl.enum.isSome parent.isSome type
    properties := .ofList (properties.map fun property => (property.name, property))
    literals := decl.enum
    description := decl.description }

def ofSchema (schema : Schema) : Except ReadFault TypeGraph := do
  let nodes ← schema.types.entries.mapM fun (name, decl) => do
    return (name, ← readNode schema name decl)
  return { title := schema.title, nodes := .ofList nodes, resources := schema.resources }

end RamlTypes.TypeGraph
