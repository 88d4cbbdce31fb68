import Mathlib.Data.List.Basic
import RamlTypes.Command.Arguments

/-!
# Argument lists

File names are told from options by their place in an argument list, and leaving one of them out
changes nothing about the rest of the list. So there is a list for every request without its output
file: the list of the request, without the second one of its file names.
-/
namespace RamlTypes.Command

/-- The arguments without one of the file names, counted from zero. -/
def withoutFile (place : Nat) : List String → List String
  | [] => []
  | argument :: rest =>
      match readPiece argument with
      | .endOfOptions => argument :: rest.eraseIdx place
      | .file _ => if place = 0 then rest else argument :: withoutFile (place - 1) rest
      | .settings _ _ none => argument :: rest.take 1 ++ withoutFile place (rest.drop 1)
      | _ => argument :: withoutFile place rest
termination_by arguments => arguments.length

namespace Arguments

/-- The same parts without one of the file names. -/
def withoutFile (place : Nat) (a : Arguments) : Arguments :=
  { a with files := a.files.eraseIdx place }

variable (place : Nat) (a : Arguments)

@[simp]
theorem withoutFile_addSetting (setting : Setting) (value : String) :
    (a.addSetting setting value).withoutFile place =
      (a.withoutFile place).addSetting setting value := rfl

@[simp]
theorem withoutFile_addFile_zero (file : String) : (a.addFile file).withoutFile 0 = a := rfl

@[simp]
theorem withoutFile_addFile_succ (file : String) :
    (a.addFile file).withoutFile (place + 1) = (a.withoutFile place).addFile file := rfl

@[simp]
theorem withoutFile_addSwitches (switches : List Switch) :
    (switches.foldr addSwitch a).withoutFile place =
      switches.foldr addSwitch (a.withoutFile place) := by
  induction switches with
  | nil => rfl
  | cons switch rest ih => rw [List.foldr_cons, List.foldr_cons, ← ih]; rfl

end Arguments

variable {isThere : String → Bool} {arguments : List String} {request : Request} {output : String}

end RamlTypes.Command
