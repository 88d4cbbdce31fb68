import RamlTypes.Command.Libraries
import RamlTypes.Command.Step
import RamlTypes.Document.Load
import RamlTypes.Model.Encode
import RamlTypes.Resolution
import RamlTypes.Settings

/-!
# Running the command

The command reads a document, resolves it and prints the model, or writes it to a file if one is
named. Settings and document are read one after the other, the settings first; what is wrong with
their values shows only when they are used. The output file is opened last.
-/

namespace RamlTypes.Command

/-- Events from warnings on, or all of them. -/
def shown (verbose : Bool) (log : List Event) : List Event :=
  log.filter fun event => verbose || event.level = .warning

def lines (log : List Event) : String := String.join (log.map fun event => event.line ++ "\n")

namespace Step

/-- The settings in a file, or the ones that hold without one. -/
def readSettings : Option String → Step Settings
  | none => pure {}
  | some name => do
      let text := Document.fileText (← readFile name)
      match Json.parse text with
      | .error (.notJson error) => throw (.crashed (.configNotJson error text))
      | .error (.badScalar problem) => throw (.crashed (.badScalar problem))
      | .ok (.map entries) =>
          orStop (fun problem => .ofFault (.misfit problem)) (Settings.ofEntries entries)
      | .ok value => throw (.crashed (.configNotMapping value.kindName))

def readDocument (libraries : Libraries) : Option String → Step Entries
  | none => throw (.crashed .noInput)
  | some name => do
      match Document.load libraries.readYaml name (← readFile name) with
      | .ok entries => return entries
      | .error (.defect error) => throw (.ofFault (.schema error))
      | .error (.badScalar problem) => throw (.crashed (.badScalar problem))

def findProfile (language : String) : Step Profile :=
  match Profile.forLanguage? language with
  | some profile => pure profile
  | none => throw (.crashed (.noProfile language))

/-- Resolves a document and reports what is logged. -/
def resolve (verbose : Bool) (profile : Profile) (options : Options) (document : Entries) :
    Step Model := do
  let resolution := resolveWith profile options document
  report (lines (shown verbose resolution.log))
  orStop .ofFault resolution.outcome

/-- The model that a request asks for. -/
def makeModel (libraries : Libraries) (request : Request) : Step Model := do
  let settings ← readSettings request.config
  let document ← readDocument libraries request.input
  let profile ← findProfile request.language
  let options ← orStop (fun problem => .ofFault (.misfit problem))
    (settings.options libraries.setOrder profile request.annotations)
  resolve request.verbose profile options document

/-- The text that a model is put out as. -/
def modelText (model : Model) : Step String := do
  let text ← orStop (fun problem => .crashed (.unwritable problem)) (Json.dump model.encode)
  return text ++ "\n"

def putOut (text : String) : Option String → Step Unit
  | none => print text
  | some output => do
      openFile output
      writeFile output text

def carryOut (libraries : Libraries) (request : Request) : Step Unit := do
  putOut (← modelText (← makeModel libraries request)) request.output

end Step

/-- How a run ends. -/
inductive Ending where
  | help
  | misuse
  | stopped (stop : Stop)
  | completed

def Ending.exitCode : Ending → Nat
  | help => 0
  | misuse => 2
  | stopped _ => 1
  | completed => 0

/-- How a run has ended, and what it has left behind. -/
structure Outcome where
  ending : Ending
  world : World

namespace Outcome

/-- The outcome of steps that are run on the files that there are. -/
def of (step : Step Unit) (storage : Storage) : Outcome :=
  match step.run { storage } with
  | .ok _ world => ⟨.completed, world⟩
  | .error stop world => ⟨.stopped stop, { world with stderr := world.stderr ++ stop.report }⟩

def exitCode (outcome : Outcome) : Nat := outcome.ending.exitCode

/-- What the run prints as its result. -/
def stdout (outcome : Outcome) : String := outcome.world.stdout

/-- What the run reports, faults included. -/
def stderr (outcome : Outcome) : String := outcome.world.stderr

/-- The files after the run. -/
def storage (outcome : Outcome) : Storage := outcome.world.storage

end Outcome

/-- What an argument list asks for where these files are. -/
def invocation (libraries : Libraries) (storage : Storage) (arguments : List String) : Invocation :=
  libraries.readArguments (fun name => (storage.find? name).isSome) arguments

/-- Runs the command on the files that there are. -/
def run (libraries : Libraries) (storage : Storage) (arguments : List String) : Outcome :=
  match invocation libraries storage arguments with
  | .help => ⟨.help, { storage }⟩
  | .misuse => ⟨.misuse, { storage }⟩
  | .request request => .of (.carryOut libraries request) storage

end RamlTypes.Command
