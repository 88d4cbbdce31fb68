import RamlTypes.FileName
import RamlTypes.Text.Quoted

/-!
# Files and directories

What the command sees of the files around it, by their resolved names. A directory is there if it
is named or if something is inside of it; the current directory and those above it always are.
-/

namespace RamlTypes.Command

/-- What is stored under a name. -/
inductive Stored where
  | file (text : String)
  | directory
deriving DecidableEq, Repr

/-- Why a file cannot be read or written. -/
inductive AccessProblem where
  | missing
  | notDirectory
  | isDirectory
deriving DecidableEq, Repr

structure AccessError where
  problem : AccessProblem
  name : String
deriving DecidableEq, Repr

def AccessProblem.message : AccessProblem → String
  | missing => "[Errno 2] No such file or directory"
  | notDirectory => "[Errno 20] Not a directory"
  | isDirectory => "[Errno 21] Is a directory"

def AccessError.message (error : AccessError) : String :=
  error.problem.message ++ ": " ++ Text.quoted error.name

/-- What is stored, by resolved names. -/
abbrev Storage := List (String × Stored)

namespace Storage

/-- A storage of files with their texts. -/
def ofFiles (files : List (String × String)) : Storage :=
  files.map fun (name, text) => (FileName.resolve name, .file text)

def find? (s : Storage) (name : String) : Option Stored :=
  if (FileName.parts name).all (· = ['.', '.']) then some .directory
  else match s.lookup name with
    | some stored => some stored
    | none =>
        if s.any fun entry => (FileName.directories entry.1).contains name then some .directory
        else none

/-- The text of a file; one that is missing has none. -/
def read (s : Storage) (name : String) : Except AccessError String :=
  match s.find? name with
  | some (.file text) => .ok text
  | some .directory => .error ⟨.isDirectory, name⟩
  | none => .error ⟨.missing, name⟩

/-- The problem with the first name that is not the one of a directory. -/
def directoryProblem? (s : Storage) : List String → Option AccessProblem
  | [] => none
  | name :: rest =>
      match s.find? name with
      | some .directory => s.directoryProblem? rest
      | some (.file _) => some .notDirectory
      | none => some .missing

/-- Why a file cannot be written: the directories around it have to be there, and the file may be
there already. -/
def writeError? (s : Storage) (name : String) : Option AccessError :=
  match s.find? name with
  | some (.file _) => none
  | some .directory => some ⟨.isDirectory, name⟩
  | none => (s.directoryProblem? (FileName.directories name)).map fun problem => ⟨problem, name⟩

/-- The files after one was written. -/
def write (s : Storage) (name text : String) : Storage := (name, .file text) :: s

/-- The files that are not as they were before, with their texts. -/
def changes (before after : Storage) : List (String × String) :=
  (after.map Prod.fst).eraseDups.filterMap fun name =>
    match after.find? name with
    | some (.file text) =>
        if before.find? name = some (.file text) then none else some (name, text)
    | _ => none

end Storage

end RamlTypes.Command
