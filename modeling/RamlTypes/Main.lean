import RamlTypes.Command.Run

/-!
# The command line program

Reads the files that the arguments may mean, runs the command on them and carries out what it has
changed.
-/

namespace RamlTypes.Command

def usage : String :=
  "Usage: ramltypes [-c CONFIG] [-l java|python] [-a jackson|gson] [-v] [--help] PATH [OUTPUT]"

/-- What is stored under a name, as far as it can be read. Reading a directory fails in its own
way. -/
def stored? (name : String) : IO (Option Stored) := do
  match ← (IO.FS.readFile name).toBaseIO with
  | .ok text => return some (.file text)
  | .error (.inappropriateType none _ _) => return some .directory
  | .error _ => return none

/-- The files that the arguments may mean, and the directories around them. -/
def readStorage (arguments : List String) : IO Storage := do
  let mut storage : Storage := []
  let names : List String := match readArguments arguments with
    | some a => (a.files ++ a.settings.map Prod.snd).map FileName.resolve
    | none => []
  for name in names.flatMap fun name => name :: FileName.directories name do
    if let some stored ← stored? name then
      storage := (name, stored) :: storage
  return storage

end RamlTypes.Command

open RamlTypes.Command in
def main (arguments : List String) : IO UInt32 := do
  let storage ← readStorage arguments
  let outcome := run .provided storage arguments
  match outcome.ending with
  | .help => IO.println usage
  | .misuse => IO.eprintln usage
  | .stopped (.crashed crash) => IO.eprintln crash.message
  | _ => pure ()
  IO.print outcome.stdout
  IO.eprint outcome.stderr
  for (file, text) in Storage.changes storage outcome.storage do
    IO.FS.writeFile file text
  return outcome.exitCode.toUInt32
