import RamlTypes.Command.Step
import RamlTypes.Proofs.Outcomes

/-!
# What steps do

A step has a result, which is a value or what the run stops with, and leaves a world behind in
either case. Steps that follow one another go on in the world that the ones before them have left. A
step that only reports leaves all files as they were and prints nothing.
-/
namespace RamlTypes.Command.Step

variable {α β ε : Type}

/-- What the step returns, or what it stops the run with. -/
def result (step : Step α) (w : World) : Except Stop α :=
  match step w with
  | .ok a _ => .ok a
  | .error stop _ => .error stop

/-- What the step leaves behind, whether it returns or not. -/
def after (step : Step α) (w : World) : World :=
  match step w with
  | .ok _ w' => w'
  | .error _ w' => w'

/-! ### One step after the other -/

section Sequence

variable (x : Step α) (f : α → Step β) (w : World)

@[simp] theorem result_pure (a : α) : (pure a : Step α).result w = .ok a := rfl

@[simp] theorem after_pure (a : α) : (pure a : Step α).after w = w := rfl

@[simp] theorem result_throw (stop : Stop) : (throw stop : Step α).result w = .error stop := rfl

@[simp] theorem after_throw (stop : Stop) : (throw stop : Step α).after w = w := rfl

theorem result_bind : (x >>= f).result w = x.result w >>= fun a => (f a).result (x.after w) := by
  change result (EStateM.bind x f) w = _
  unfold result after EStateM.bind
  cases x w <;> rfl

theorem after_bind : (x >>= f).after w =
    match x.result w with
    | .ok a => (f a).after (x.after w)
    | .error _ => x.after w := by
  change after (EStateM.bind x f) w = _
  unfold result after EStateM.bind
  cases x w <;> rfl

theorem get_bind (f : World → Step α) : (get >>= f) w = f w w := rfl

@[simp] theorem result_orStop (stop : ε → Stop) (outcome : Except ε α) :
    (orStop stop outcome).result w = outcome.mapError stop := by
  cases outcome <;> rfl

@[simp] theorem after_orStop (stop : ε → Stop) (outcome : Except ε α) :
    (orStop stop outcome).after w = w := by
  cases outcome <;> rfl

@[simp] theorem after_readFile (name : String) : (readFile name).after w = w := after_orStop w _ _

end Sequence

/-! ### Reports -/

/-- The step adds to what is reported, and changes nothing else. -/
def OnlyReports (step : Step α) : Prop :=
  ∀ w, ∃ text, step.after w = { w with stderr := w.stderr ++ text }

theorem onlyReports_of_after {step : Step α} (same : ∀ w, step.after w = w) : OnlyReports step :=
  fun w => ⟨"", by simp [same]⟩

theorem onlyReports_report (text : String) : OnlyReports (report text) := fun _ => ⟨text, rfl⟩

theorem OnlyReports.bind {x : Step α} {f : α → Step β} (first : OnlyReports x)
    (next : ∀ a, OnlyReports (f a)) : OnlyReports (x >>= f) := by
  intro w
  obtain ⟨text, reported⟩ := first w
  rw [after_bind]
  split
  next a _ =>
    obtain ⟨text', reported'⟩ := next a (x.after w)
    exact ⟨text ++ text', by rw [reported', reported, String.append_assoc]⟩
  next => exact ⟨text, reported⟩

/-! ### Writing -/

section Writing

variable {w : World} {name : String}

/-- A file that can be written is empty once it is open. -/
theorem openFile_of_writable (writable : w.storage.writeError? name = none) :
    openFile name w = .ok () { w with storage := w.storage.write name "" } := by
  rw [openFile, get_bind, writable]
  rfl

theorem openFile_of_writeError {error : AccessError}
    (refused : w.storage.writeError? name = some error) :
    openFile name w = .error (.crashed (.access error)) w := by
  rw [openFile, get_bind, refused]
  rfl

end Writing

end RamlTypes.Command.Step
