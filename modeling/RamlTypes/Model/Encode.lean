import RamlTypes.Model

/-!
# Models as documents

The form in which a model is written: mappings with fixed keys in a fixed order. A class has the
keys `enum` and `alias_target` only if it has an enum or a definition, and a field has
`union_members` only if it is a union.
-/

namespace RamlTypes

namespace Value

/-- A mapping from texts. -/
def record (entries : List (String × Value)) : Value :=
  .map (entries.map fun entry => (.text entry.1, entry.2))

def bool (b : Bool) : Value := .scalar (.bool b)

def texts (names : List String) : Value := .list (names.map .text)

def optionalText : Option String → Value
  | some s => .text s
  | none => .null

end Value

open Value (record texts optionalText)

mutual

def TargetType.encode : TargetType → Value
  | .primitive name => record [("kind", .text "primitive"), ("name", .text name)]
  | .listOf element => record [("kind", .text "list"), ("element", element.encode)]
  | .enumRef name => record [("kind", .text "enum"), ("name", .text name)]
  | .objectRef name => record [("kind", .text "object"), ("name", .text name)]
  | .unionOf commonAncestor members =>
      record [("kind", .text "union"), ("common_ancestor", commonAncestor),
        ("members", .list (TargetType.encodeAll members))]

def TargetType.encodeAll : List TargetType → List Value
  | [] => []
  | target :: rest => target.encode :: TargetType.encodeAll rest

end

def Literal.encode : Literal → Value
  | text s => .text s
  | int n => .scalar (.int n)
  | float x => .scalar (.float x)

def EnumMember.encode (member : EnumMember) : Value :=
  record [("name", .text member.name), ("value", member.value.encode),
    ("literal", .text member.value.source)]

def EnumDef.encode (definition : EnumDef) : Value :=
  record [("name", .text definition.name), ("owner", .text definition.owner),
    ("property_name", .text definition.propertyName), ("value_type", .text definition.valueType),
    ("members", .list (definition.members.map (·.encode)))]

def ResolvedField.encode (field : ResolvedField) : Value :=
  record ([("name", .text field.name), ("type", field.type.encode),
    ("required", .bool field.required), ("is_member", .bool field.isMember),
    ("required_child_overrides", texts field.requiredOverrides)] ++
    (field.unionMembers.map fun members => ("union_members", texts members)).toList)

def ResolvedClass.encode (c : ResolvedClass) : Value :=
  record ([("name", .text c.name), ("kind", .text c.kind.text),
    ("parent_name", optionalText c.parent), ("ancestors", texts c.ancestors),
    ("children", texts c.children), ("is_abstract", .bool c.isAbstract),
    ("has_children", .bool c.hasChildren),
    ("has_required_properties", .bool c.hasRequiredProperties),
    ("deserializer_target", .text c.deserializerTarget),
    ("fields", .list (c.fields.map (·.encode)))] ++
    (c.enum.map fun definition => ("enum", .text definition.name)).toList ++
    (c.definition.map fun target => ("alias_target", target.encode)).toList)

def Deserializer.encode (d : Deserializer) : Value :=
  record [("name", .text d.name), ("base", .text d.base), ("children", texts d.children),
    ("discriminant_field", .text d.discriminant)]

def FieldWarning.encode (warning : FieldWarning) : Value :=
  record [("kind", .text warning.kind.text), ("type_name", .text warning.typeName),
    ("field_name", .text warning.fieldName), ("message", .text warning.message)]

def Model.encode (m : Model) : Value :=
  record [("title", .text m.title), ("backend", .text m.backend),
    ("classes", .list (m.classes.map (·.encode))), ("enums", .list (m.enums.map (·.encode))),
    ("deserializers", .list (m.deserializers.map (·.encode))),
    ("warnings", .list (m.warnings.map (·.encode)))]

end RamlTypes
