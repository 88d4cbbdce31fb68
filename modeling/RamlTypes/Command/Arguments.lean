import RamlTypes.Command.Request
import RamlTypes.Config
import RamlTypes.FileName
import RamlTypes.Profile

/-!
# Command line arguments

Options may stand anywhere between the file names, until `--` ends them. An option that takes a
value takes the rest of its argument or else the next argument, whatever that is; short options may
be run together. Of repeated options the last one counts.
-/

namespace RamlTypes.Command

inductive Setting where
  | config
  | language
  | annotations
deriving DecidableEq, Repr

inductive Switch where
  | verbose
  | help
deriving DecidableEq, Repr

/-- An argument list in its parts: the values of the settings in order, the switches and the
file names. -/
structure Arguments where
  settings : List (Setting × String) := []
  switches : List Switch := []
  files : List String := []
deriving DecidableEq, Repr, Inhabited

namespace Arguments

def addSetting (setting : Setting) (value : String) (a : Arguments) : Arguments :=
  { a with settings := (setting, value) :: a.settings }

def addSwitch (switch : Switch) (a : Arguments) : Arguments :=
  { a with switches := switch :: a.switches }

def addFile (file : String) (a : Arguments) : Arguments :=
  { a with files := file :: a.files }

/-- The value of a setting where it was given last. -/
def last? (a : Arguments) (setting : Setting) : Option String :=
  (a.settings.reverse.find? (·.1 = setting)).map (·.2)

def has (a : Arguments) (switch : Switch) : Bool := a.switches.contains switch

end Arguments

def longSetting? : String → Option Setting
  | "config" => some .config
  | "language" => some .language
  | "annotations" => some .annotations
  | _ => none

def longSwitch? : String → Option Switch
  | "verbose" => some .verbose
  | "help" => some .help
  | _ => none

def shortSetting? : Char → Option Setting
  | 'c' => some .config
  | 'l' => some .language
  | 'a' => some .annotations
  | _ => none

/-- What one argument holds. A setting without a value takes the next argument for it. -/
inductive Piece where
  | file (name : String)
  | settings (switches : List Switch) (setting : Setting) (value : Option String)
  | switches (switches : List Switch)
  | endOfOptions
  | invalid
deriving DecidableEq, Repr

/-- Short options run together; the text behind a setting is its value. -/
def readShort (before : List Switch) : List Char → Piece
  | [] => .switches before
  | 'v' :: rest => readShort (before ++ [.verbose]) rest
  | c :: rest =>
      match shortSetting? c with
      | none => .invalid
      | some setting =>
          .settings before setting (if rest = [] then none else some (String.ofList rest))

/-- A long option behind its dashes, with a value behind an equals sign if there is one. -/
def readLong (cs : List Char) : Piece :=
  let name := String.ofList (cs.takeWhile (· != '='))
  let value := (cs.dropWhile (· != '=')).tail?.map String.ofList
  match longSetting? name, longSwitch? name, value with
  | some setting, _, value => .settings [] setting value
  | none, some switch, none => .switches [switch]
  | _, _, _ => .invalid

def readPiece (argument : String) : Piece :=
  match argument.toList with
  | ['-', '-'] => .endOfOptions
  | '-' :: '-' :: rest => readLong rest
  | ['-'] => .file argument
  | '-' :: rest => readShort [] rest
  | _ => .file argument

/-- The parts of an argument list, unless an option is unknown, lacks its value or has one that it
does not take. -/
def readArguments : List String → Option Arguments
  | [] => some {}
  | argument :: rest =>
      match readPiece argument with
      | .invalid => none
      | .endOfOptions => some { files := rest }
      | .file name => (readArguments rest).map (·.addFile name)
      | .switches switches =>
          (readArguments rest).map fun a => switches.foldr Arguments.addSwitch a
      | .settings switches setting (some value) =>
          (readArguments rest).map fun a => switches.foldr .addSwitch (a.addSetting setting value)
      | .settings switches setting none =>
          match rest with
          | [] => none
          | value :: rest =>
              (readArguments rest).map fun a =>
                switches.foldr .addSwitch (a.addSetting setting value)

/-- An annotation style in any case, as it is spelled in the list of choices. -/
def annotationsChoice? (value : String) : Option String :=
  ("" :: annotationStyles).find? fun style => Text.foldCase value = style

/-- The invocation that an argument list is, `isThere` telling which names exist. Asking for help
comes before every complaint about values. -/
def readInvocation (isThere : String → Bool) (arguments : List String) : Invocation :=
  match readArguments arguments with
  | none => .misuse
  | some a =>
      if a.has .help then .help
      else
        let config := (a.last? .config).map FileName.resolve
        let files := a.files.map FileName.resolve
        let language := (a.last? .language).getD "java"
        let request := do
          let _ ← Profile.forLanguage? language
          let annotations ← annotationsChoice? ((a.last? .annotations).getD "")
          if config.all isThere && files.head?.all isThere && files.length ≤ 2 then
            some {
              config, language, annotations
              verbose := a.has .verbose
              input := files[0]?
              output := files[1]? }
          else none
        match request with
        | some request => .request request
        | none => .misuse

end RamlTypes.Command
