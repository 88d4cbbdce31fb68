import RamlTypes.Command.Run
import RamlTypes.Proofs.ArgumentLists
import RamlTypes.Proofs.RunOptions
import RamlTypes.Proofs.Steps

/-!
# Runs of the command

Making a model reads files and reports, and does nothing else. Only then is the text put out: it is
printed, or a file is opened and written. So a run that stops has changed nothing, whatever it stops
with, and one that does not stop has changed its output file only. The text does not depend on where
it is put out. It may depend on the order of sets, by which names change places that share their
title case.
-/
namespace RamlTypes.Command

/-! ### Files -/

namespace Storage

variable {s : Storage} {name other : String}

/-- The current directory and those above it. -/
def isOuter (name : String) : Bool := (FileName.parts name).all (· = ['.', '.'])

/-- Something is stored inside of the directory. -/
def hasInside (s : Storage) (name : String) : Bool :=
  s.any fun entry => (FileName.directories entry.1).contains name

theorem find?_outer (outer : isOuter name = true) : s.find? name = some .directory := if_pos outer

theorem find?_inner (inner : isOuter name = false) : s.find? name =
    (s.lookup name).or (if s.hasInside name then some .directory else none) := by
  rw [find?, if_neg (by rw [← isOuter, inner]; simp)]
  cases s.lookup name <;> rfl

theorem isDirectory_of_directoryProblem? {names : List String}
    (fine : s.directoryProblem? names = none) : ∀ name ∈ names, s.find? name = some .directory := by
  induction names with
  | nil => simp
  | cons first rest ih =>
    rw [directoryProblem?] at fine
    split at fine
    next found => exact List.forall_mem_cons.mpr ⟨found, ih fine⟩
    next => cases fine
    next => cases fine

/-- A file that can be written is no directory, and it is there or the directories around it are. -/
theorem writable_cases (writable : s.writeError? name = none) :
    isOuter name = false ∧ ((∃ text, s.lookup name = some (.file text)) ∨
      ∀ d ∈ FileName.directories name, s.find? d = some .directory) := by
  cases outer : isOuter name with
  | true => simp [writeError?, find?_outer outer] at writable
  | false =>
    refine ⟨rfl, ?_⟩
    cases listed : s.lookup name with
    | some stored =>
      cases stored with
      | file text => exact .inl ⟨text, rfl⟩
      | directory => simp [writeError?, find?_inner outer, listed] at writable
    | none =>
      cases inside : s.hasInside name with
      | true => simp [writeError?, find?_inner outer, listed, inside] at writable
      | false =>
        have absent : s.find? name = none := by simp [find?_inner outer, listed, inside]
        rw [writeError?, absent] at writable
        exact .inr (isDirectory_of_directoryProblem? (Option.map_eq_none_iff.mp writable))

/-- A directory around a file that can be written has something inside before. -/
theorem hasInside_of_writable (writable : s.writeError? name = none)
    (around : other ∈ FileName.directories name) (inner : isOuter other = false)
    (unlisted : s.lookup other = none) : s.hasInside other = true := by
  -- Either the file itself was there, or the directory was.
  rcases (writable_cases writable).2 with ⟨text, stored⟩ | directories
  · obtain ⟨before, after, rfl, _⟩ := List.lookup_eq_some_iff.mp stored
    exact List.any_eq_true.mpr
      ⟨_, List.mem_append_right _ List.mem_cons_self, List.contains_iff_mem.mpr around⟩
  · have found := directories other around
    rw [find?_inner inner, unlisted] at found
    simpa using found

/-- The file holds what was written to it. -/
theorem find?_write (writable : s.writeError? name = none) (text : String) :
    (s.write name text).find? name = some (.file text) := by
  simp [find?_inner (writable_cases writable).1, write]

/-- All other files and directories are as they were. No directory comes about on the way. -/
theorem find?_write_of_ne (writable : s.writeError? name = none) (text : String)
    (apart : other ≠ name) : (s.write name text).find? other = s.find? other := by
  cases outer : isOuter other with
  | true => rw [find?_outer outer, find?_outer outer]
  | false =>
    have lookup : (s.write name text).lookup other = s.lookup other := by
      simp [write, List.lookup_cons, beq_false_of_ne apart]
    have inside : (s.write name text).hasInside other =
        ((FileName.directories name).contains other || s.hasInside other) := rfl
    rw [find?_inner outer, find?_inner outer, lookup, inside]
    cases listed : s.lookup other with
    | some stored => rfl
    | none =>
      cases around : (FileName.directories name).contains other with
      | false => rfl
      | true =>
        -- A directory around the new file is not a new one.
        rw [hasInside_of_writable writable (List.contains_iff_mem.mp around) outer listed]
        rfl

end Storage

/-! ### Everything before the output -/

namespace Step

variable {libraries : Libraries} {request : Request} {w : World}

@[simp]
theorem after_readSettings (name : Option String) : (readSettings name).after w = w := by
  cases name with
  | none => rfl
  | some name =>
    rw [readSettings, after_bind, after_readFile]
    split
    next text _ =>
      dsimp only
      split
      · exact after_throw _ _
      · exact after_throw _ _
      · exact after_orStop _ _ _
      · exact after_throw _ _
    next => rfl

@[simp]
theorem after_readDocument (name : Option String) : (readDocument libraries name).after w = w := by
  cases name with
  | none => rfl
  | some name =>
    rw [readDocument, after_bind, after_readFile]
    split
    next text _ =>
      split
      · exact after_pure _ _
      · exact after_throw _ _
      · exact after_throw _ _
    next => rfl

@[simp]
theorem after_findProfile (language : String) : (findProfile language).after w = w := by
  unfold findProfile
  split <;> rfl

theorem findProfile_returns_iff {language : String} {profile : Profile} :
    (findProfile language).result w = .ok profile ↔
      Profile.forLanguage? language = some profile := by
  unfold findProfile
  cases Profile.forLanguage? language <;> simp

theorem onlyReports_orStop {α ε : Type} (stop : ε → Stop) (outcome : Except ε α) :
    OnlyReports (orStop stop outcome) :=
  onlyReports_of_after fun w => after_orStop w stop outcome

theorem onlyReports_makeModel : OnlyReports (makeModel libraries request) :=
  (onlyReports_of_after fun _ => after_readSettings _).bind fun _ =>
    (onlyReports_of_after fun _ => after_readDocument _).bind fun _ =>
      (onlyReports_of_after fun _ => after_findProfile _).bind fun _ =>
        (onlyReports_orStop _ _).bind fun _ =>
          (onlyReports_report _).bind fun _ => onlyReports_orStop _ _

theorem onlyReports_modelText (model : Model) : OnlyReports (modelText model) :=
  (onlyReports_orStop _ _).bind fun _ => onlyReports_of_after (after_pure · _)

/-- Everything up to the text that is put out. -/
def makeText (libraries : Libraries) (request : Request) : Step String :=
  makeModel libraries request >>= modelText

theorem onlyReports_makeText : OnlyReports (makeText libraries request) :=
  onlyReports_makeModel.bind onlyReports_modelText

theorem carryOut_eq :
    carryOut libraries request = makeText libraries request >>= (putOut · request.output) := by
  rw [makeText, bind_assoc]
  rfl

theorem putOut_none (text : String) :
    putOut text none w = .ok () { w with stdout := w.stdout ++ text } := rfl

theorem putOut_of_writable {output : String} (writable : w.storage.writeError? output = none)
    (text : String) : putOut text (some output) w =
      .ok () { w with storage := (w.storage.write output "").write output text } := by
  change EStateM.bind (openFile output) _ w = _
  rw [EStateM.bind, openFile_of_writable writable]
  rfl

theorem putOut_of_writeError {output : String} {error : AccessError}
    (refused : w.storage.writeError? output = some error) (text : String) :
    putOut text (some output) w = .error (.crashed (.access error)) w := by
  change EStateM.bind (openFile output) _ w = _
  rw [EStateM.bind, openFile_of_writeError refused]

end Step

/-! ### Ends of runs -/

theorem Outcome.of_eq (step : Step Unit) (storage : Storage) :
    of step storage =
      match step.result { storage } with
      | .ok _ => ⟨.completed, step.after { storage }⟩
      | .error stop =>
          let world := step.after { storage }
          ⟨.stopped stop, { world with stderr := world.stderr ++ stop.report }⟩ := by
  rw [of, Step.result, Step.after, EStateM.run]
  cases step { storage } <;> rfl

/-- How carrying out a request ends: with the first thing that stops the run, or with the text put
out. -/
inductive Ends (libraries : Libraries) (storage : Storage) (request : Request) :
    Outcome → Prop where
  | stopped {stop : Stop}
      (unmade : (Step.makeText libraries request).result { storage } = .error stop)
      (reported : String) :
      Ends libraries storage request ⟨.stopped stop, { storage, stderr := reported }⟩
  | printed {text : String} (made : (Step.makeText libraries request).result { storage } = .ok text)
      (unnamed : request.output = none) (reported : String) :
      Ends libraries storage request ⟨.completed, { storage, stdout := text, stderr := reported }⟩
  | refused {text output : String} {error : AccessError}
      (made : (Step.makeText libraries request).result { storage } = .ok text)
      (named : request.output = some output) (refused : storage.writeError? output = some error)
      (reported : String) :
      Ends libraries storage request
        ⟨.stopped (.crashed (.access error)), { storage, stderr := reported }⟩
  | written {text output : String}
      (made : (Step.makeText libraries request).result { storage } = .ok text)
      (named : request.output = some output) (writable : storage.writeError? output = none)
      (reported : String) :
      Ends libraries storage request ⟨.completed,
        { storage := (storage.write output "").write output text, stderr := reported }⟩

theorem ends_carryOut (libraries : Libraries) (storage : Storage) (request : Request) :
    Ends libraries storage request (.of (.carryOut libraries request) storage) := by
  have reports : Step.OnlyReports (Step.makeText libraries request) := Step.onlyReports_makeText
  obtain ⟨reported, left⟩ := reports { storage }
  -- Up to the text, only reports have been added, so the output finds the files as they were.
  rw [Outcome.of_eq, Step.carryOut_eq, Step.result_bind, Step.after_bind, left]
  cases made : (Step.makeText libraries request).result { storage } with
  | error stop => exact .stopped made _
  | ok text =>
    cases named : request.output with
    | none =>
      simp only [ok_bind, Step.result, Step.after, Step.putOut_none, String.empty_append]
      exact .printed made named _
    | some output =>
      cases writable : storage.writeError? output with
      | none =>
        have put := Step.putOut_of_writable
          (w := { storage, stderr := "" ++ reported }) writable text
        simp only [ok_bind, Step.result, Step.after, put]
        exact .written made named writable _
      | some error =>
        have put := Step.putOut_of_writeError
          (w := { storage, stderr := "" ++ reported }) writable text
        simp only [ok_bind, Step.result, Step.after, put]
        exact .refused made named writable _

/-! ### Orders of sets -/

/-- The text of a model as it is put out. -/
def fullText (m : Model) : String := Json.render m.encode ++ "\n"

namespace Step

variable {libraries : Libraries} {request : Request} {w : World} {text : String}

theorem result_modelText (m : Model) : (modelText m).result w =
    match Json.problem? m.encode with
    | some problem => .error (.crashed (.unwritable problem))
    | none => .ok (fullText m) := by
  rw [modelText, result_bind, result_orStop, Json.dump]
  cases Json.problem? m.encode <;> rfl

/-- A text is the one of a model that can be written. -/
theorem makeText_returns_iff : (makeText libraries request).result w = .ok text ↔
    ∃ m, (makeModel libraries request).result w = .ok m ∧ Json.problem? m.encode = none ∧
      text = fullText m := by
  rw [makeText, result_bind, bind_ok_iff]
  refine exists_congr fun m => and_congr_right fun _ => ?_
  rw [result_modelText]
  cases Json.problem? m.encode <;> simp [eq_comm]

@[simp]
theorem result_resolve (verbose : Bool) (profile : Profile) (options : Options)
    (document : Entries) : (resolve verbose profile options document).result w =
      (resolveWith profile options document).outcome.mapError .ofFault := by
  rw [resolve, result_bind, result_orStop]
  rfl

/-- A model is the one of a document that was read, resolved with the options of settings that were
read. -/
theorem makeModel_returns_iff {m : Model} :
    (makeModel libraries request).result w = .ok m ↔
      ∃ settings document profile options,
        (readSettings request.config).result w = .ok settings ∧
        (readDocument libraries request.input).result w = .ok document ∧
        Profile.forLanguage? request.language = some profile ∧
        settings.options libraries.setOrder profile request.annotations = .ok options ∧
        (resolveWith profile options document).outcome = .ok m := by
  simp only [makeModel, result_bind, bind_ok_iff, result_orStop, result_resolve, mapError_ok_iff,
    after_readSettings, after_readDocument, findProfile_returns_iff]
  constructor
  · rintro ⟨settings, read, document, loaded, profile, found, options, given, resolved⟩
    exact ⟨settings, document, profile, options, read, loaded, found, given, resolved⟩
  · rintro ⟨settings, document, profile, options, read, loaded, found, given, resolved⟩
    exact ⟨settings, read, document, loaded, profile, found, options, given, resolved⟩

end Step

/-! ### Runs -/

variable {libraries : Libraries} {storage : Storage} {arguments : List String} {request : Request}
  {text : String}

theorem ends_run (asked : invocation libraries storage arguments = .request request) :
    Ends libraries storage request (run libraries storage arguments) := by
  rw [run, asked]
  exact ends_carryOut libraries storage request

namespace Storage

variable {s : Storage} {name other text : String}

/-- What is written is there once a file is opened and written. -/
theorem find?_opened (writable : s.writeError? name = none) (text : String) :
    ((s.write name "").write name text).find? name = some (.file text) ∧
      ∀ other, other ≠ name → ((s.write name "").write name text).find? other = s.find? other := by
  have opened : (s.write name "").writeError? name = none := by
    rw [writeError?, find?_write writable]
  refine ⟨find?_write opened text, fun other apart => ?_⟩
  rw [find?_write_of_ne opened text apart, find?_write_of_ne writable "" apart]

end Storage

end RamlTypes.Command
