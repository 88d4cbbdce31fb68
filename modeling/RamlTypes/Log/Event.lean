import RamlTypes.Fault

/-!
# Events

What a run reports on its way: its progress, enum members that had to be renamed, and everything
that was dropped.
-/

namespace RamlTypes

inductive WarningKind where
  | unsupportedConstruct
  | fieldMapping
deriving DecidableEq, Repr

def WarningKind.text : WarningKind → String
  | unsupportedConstruct => "unsupported_construct"
  | fieldMapping => "field_mapping"

/-- A field that was dropped; an empty field name stands for the definition of the type itself. -/
structure FieldWarning where
  kind : WarningKind
  typeName : String
  fieldName : String
  message : String
deriving DecidableEq, Repr

def FieldWarning.location (warning : FieldWarning) : String :=
  if warning.fieldName = "" then warning.typeName
  else warning.typeName ++ "." ++ warning.fieldName

inductive Level where
  | debug
  | info
  | warning
deriving DecidableEq, Repr

def Level.text : Level → String
  | debug => "DEBUG"
  | info => "INFO"
  | warning => "WARNING"

inductive Event where
  | schemaRead (types resources : Nat)
  | graphBuilt (nodes : Nat)
  | resolving (types : Nat) (language : String)
  | noCommonAncestor (members : List String) (fallback : String)
  | memberRenamed (enum name newName : String)
  | dropped (warning : FieldWarning)
  | resolved (classes enums deserializers warnings : Nat)
deriving DecidableEq, Repr

namespace Event

def level : Event → Level
  | resolving _ _ => .info
  | memberRenamed _ _ _ => .warning
  | dropped _ => .warning
  | _ => .debug

/-- The name of the logger that an event is reported by. -/
def source : Event → String
  | schemaRead _ _ => "raml_to_code.pipeline.schema_ast.parser"
  | graphBuilt _ => "raml_to_code.pipeline.schema_ast.type_graph"
  | resolving _ _ => "raml_to_code.pipeline.generator"
  | noCommonAncestor _ _ => "raml_to_code.pipeline.analyzer.common_ancestor"
  | memberRenamed _ _ _ => "raml_to_code.pipeline.analyzer.field_mapper"
  | dropped _ => "raml_to_code.pipeline.analyzer.analyzer"
  | resolved _ _ _ _ => "raml_to_code.pipeline.analyzer.analyzer"

def text : Event → String
  | schemaRead types resources =>
      "Parsed " ++ toString types ++ " types and " ++ toString resources ++ " root resources"
  | graphBuilt nodes => "Built type graph with " ++ toString nodes ++ " nodes"
  | resolving types language => "Resolving " ++ toString types ++ " types for " ++ language
  | noCommonAncestor members fallback =>
      "No common ancestor for " ++ (Value.list (members.map .text)).quoted ++ ", using " ++ fallback
  | memberRenamed enum name newName =>
      "Enum " ++ enum ++ ": member name " ++ name ++ " already used, renamed to " ++ newName
  | dropped warning => warning.location ++ ": " ++ warning.message
  | resolved classes enums deserializers warnings =>
      "Resolved " ++ toString classes ++ " classes, " ++ toString enums ++ " enums, " ++
        toString deserializers ++ " deserializers (" ++ toString warnings ++ " warnings)"

/-- The event as a line of a log. -/
def line (event : Event) : String :=
  event.level.text ++ " " ++ event.source ++ ": " ++ event.text

end Event

end RamlTypes
