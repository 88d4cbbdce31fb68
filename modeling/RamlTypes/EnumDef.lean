import RamlTypes.Log.Logged
import RamlTypes.Text.Identifier

/-!
# Enums

An enum has one member for each literal, named by an identifier made from the literal. A name that
an earlier member has already taken gets a number behind it.
-/

namespace RamlTypes

/-- The literal of an enum member. Truth values are literals by their text. -/
inductive Literal where
  | text (value : String)
  | int (value : Int)
  | float (value : Double)
deriving DecidableEq, Repr

namespace Literal

def ofValue? : Value → Option Literal
  | .scalar (.bool b) => some (text (if b then "true" else "false"))
  | .scalar (.text s) => some (text s)
  | .scalar (.int n) => some (int n)
  | .scalar (.float x) => some (float x)
  | _ => none

def isText : Literal → Bool
  | text _ => true
  | _ => false

/-- The identifier that a literal asks for. Numbers get a letter in front, and a number that is
equal to an integer is written as one. -/
def baseName : Literal → String
  | text s => Text.identifier s
  | int n => Text.identifier ("e" ++ toString n)
  | float x =>
      match x.toInt? with
      | some n => Text.identifier ("e" ++ toString n)
      | none => Text.identifier ("e" ++ x.text)

/-- The literal as source text. -/
def source : Literal → String
  | text s => "\"" ++ s ++ "\""
  | int n => toString n
  | float x => x.text

end Literal

structure EnumMember where
  name : String
  value : Literal
deriving DecidableEq, Repr

/-- An enum of a type, or of a property of a type; the property name is empty for the former. -/
structure EnumDef where
  name : String
  owner : String
  propertyName : String
  valueType : String
  members : List EnumMember
deriving DecidableEq, Repr

namespace EnumDef

def nameFor (owner propertyName : String) : String :=
  Text.titleCase owner ++ Text.titleCase propertyName

def numbered (base : String) (n : Nat) : String := base ++ "_" ++ toString n

/-- The name itself, or with the least number from two on behind it, so that it is not taken. One
of as many numbers as there are names taken, and one more, is free. -/
def freshName (base : String) (taken : List String) : String :=
  if base ∈ taken then
    (((List.range' 2 (taken.length + 1)).map (numbered base)).find? (· ∉ taken)).getD base
  else base

/-- Members for the literals, `taken` being the names of earlier members. A literal is written in
the name of its member, or in the defect that it is. -/
def membersFor (enum : String) (path : Path) (taken : List String) :
    List Value → Logged (List EnumMember)
  | [] => pure []
  | value :: rest =>
      if value.isPrintable then
        match Literal.ofValue? value with
        | none => .ofExcept (.error (.schema ⟨.enumLiteral value, path⟩))
        | some literal => do
            let name := freshName literal.baseName taken
            if name ≠ literal.baseName then
              .emit (.memberRenamed enum literal.baseName name)
            let members ← membersFor enum path (name :: taken) rest
            return ⟨name, literal⟩ :: members
      else .ofExcept (.error .longNumber)

/-- Whether a member has to be renamed is reported, but makes no other difference. -/
theorem outcome_membersFor_cons {literal : Literal} {value : Value}
    (printable : value.isPrintable = true) (accepted : Literal.ofValue? value = some literal)
    (enum : String) (path : Path) (taken : List String) (rest : List Value) :
    (membersFor enum path taken (value :: rest)).outcome =
      (⟨freshName literal.baseName taken, literal⟩ :: ·) <$>
        (membersFor enum path (freshName literal.baseName taken :: taken) rest).outcome := by
  rw [membersFor, if_pos printable, accepted]
  dsimp only
  split
  · rw [Logged.outcome_bind, Logged.outcome_emit, ← Logged.outcome_map, ← bind_pure_comp]
    rfl
  · rw [← Logged.outcome_map, ← bind_pure_comp]

def pathOf (owner propertyName : String) : Path :=
  if propertyName = "" then ["types", owner] else ["types", owner, "properties", propertyName]

/-- The enum of a type or property with the given literals. -/
def ofLiterals (owner propertyName : String) (literals : List Value) (valueType : String) :
    Logged EnumDef := do
  let name := nameFor owner propertyName
  let members ← membersFor name (pathOf owner propertyName) [] literals
  return { name, owner, propertyName, valueType, members }

end EnumDef

end RamlTypes
