import RamlTypes.Command.Storage
import RamlTypes.Fault
import RamlTypes.Json.SyntaxError
import RamlTypes.Json.Writer
import RamlTypes.Profile
import RamlTypes.Text.Control

/-!
# Steps of a run

A step reads or writes files, prints or reports. It may end the whole run; what was done up to then
stays done.
-/

namespace RamlTypes.Command

/-- What a run finds and leaves behind: the files, and what it has printed and reported. -/
structure World where
  storage : Storage
  stdout : String := ""
  stderr : String := ""

/-- Failures that are not about what a document declares. -/
inductive Crash where
  | configNotJson (error : Json.SyntaxError) (text : String)
  | configNotMapping (kind : String)
  | noInput
  | badScalar (problem : BadScalar)
  | access (error : AccessError)
  | noProfile (language : String)
  | fault (problem : Fault)
  | unwritable (problem : Json.Unwritable)

def Crash.message : Crash → String
  | configNotJson error text => error.message text
  | configNotMapping kind => "'" ++ kind ++ "' object has no attribute 'items'"
  | noInput => "expected str, bytes or os.PathLike object, not NoneType"
  | badScalar problem => problem.message
  | access error => error.message
  | noProfile language => Profile.unsupportedMessage language
  | fault problem => problem.message
  | unwritable problem => problem.message

/-- What a run is stopped by, before it has put out a model. -/
inductive Stop where
  | crashed (crash : Crash)
  | failed (fault : Fault)

namespace Stop

/-- Faults that a document is expected to have are reported as such; with any other one the run
crashes. -/
def ofFault : Fault → Stop
  | .schema error => failed (.schema error)
  | .cycle chain => failed (.cycle chain)
  | .mapping failure => failed (.mapping failure)
  | other => crashed (.fault other)

/-- What is reported at the end. A fault is reported without control sequences. -/
def report : Stop → String
  | failed fault => Text.withoutControls ("Error: " ++ fault.message ++ "\n")
  | _ => ""

end Stop

abbrev Step := EStateM Stop World

namespace Step

variable {α ε : Type}

/-- Goes on with what has been returned, or stops the run. -/
def orStop (stop : ε → Stop) : Except ε α → Step α
  | .ok a => pure a
  | .error problem => throw (stop problem)

def readFile (name : String) : Step String := do
  orStop (fun error => .crashed (.access error)) ((← get).storage.read name)

/-- Opens a file for writing. A file that is there is emptied, and one that is not comes about. -/
def openFile (name : String) : Step Unit := do
  let world ← get
  match world.storage.writeError? name with
  | some error => throw (.crashed (.access error))
  | none => set { world with storage := world.storage.write name "" }

/-- Writes a text to a file that was opened. -/
def writeFile (name text : String) : Step Unit :=
  modify fun world => { world with storage := world.storage.write name text }

def print (text : String) : Step Unit :=
  modify fun world => { world with stdout := world.stdout ++ text }

def report (text : String) : Step Unit :=
  modify fun world => { world with stderr := world.stderr ++ text }

end Step

end RamlTypes.Command
