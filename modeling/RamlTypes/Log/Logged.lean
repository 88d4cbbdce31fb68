import RamlTypes.Log.Event

/-!
# Logged computations

Computations that report events. One that fails keeps what it reported before. Leaving the reports
out turns a logged computation into an ordinary one that may fail, step by step.
-/

namespace RamlTypes

/-- A computation that reports events and may fail. -/
structure Logged (α : Type) where
  log : List Event
  outcome : Except Fault α

namespace Logged

variable {α β : Type}

def ofExcept (outcome : Except Fault α) : Logged α := ⟨[], outcome⟩

def emit (event : Event) : Logged Unit := ⟨[event], .ok ()⟩

def bind (x : Logged α) (f : α → Logged β) : Logged β :=
  match x.outcome with
  | .error fault => ⟨x.log, .error fault⟩
  | .ok a =>
      let y := f a
      ⟨x.log ++ y.log, y.outcome⟩

instance : Monad Logged where
  pure a := ⟨[], .ok a⟩
  bind := bind

instance : MonadLift (Except Fault) Logged := ⟨ofExcept⟩

@[simp] theorem outcome_pure (a : α) : (pure a : Logged α).outcome = .ok a := rfl

@[simp] theorem outcome_ofExcept (x : Except Fault α) : (ofExcept x).outcome = x := rfl

@[simp] theorem outcome_emit (event : Event) : (emit event).outcome = .ok () := rfl

@[simp] theorem outcome_bind (x : Logged α) (f : α → Logged β) :
    (x >>= f).outcome = x.outcome >>= fun a => (f a).outcome := by
  change (Logged.bind x f).outcome = _
  unfold Logged.bind
  cases x.outcome <;> rfl

@[simp] theorem log_pure (a : α) : (pure a : Logged α).log = [] := rfl

@[simp] theorem log_emit (event : Event) : (emit event).log = [event] := rfl

/-- Behind a computation that returns, the reports of the next one follow. -/
theorem log_bind {x : Logged α} {a : α} (returned : x.outcome = .ok a) (f : α → Logged β) :
    (x >>= f).log = x.log ++ (f a).log := by
  change (Logged.bind x f).log = _
  rw [Logged.bind, returned]

instance : LawfulMonad Logged :=
  LawfulMonad.mk' Logged
    (fun x => by
      change Logged.bind x _ = x
      obtain ⟨log, _ | a⟩ := x <;> simp [Logged.bind])
    (fun _ _ => rfl)
    (fun x f g => by
      change Logged.bind (Logged.bind x f) g = Logged.bind x fun a => Logged.bind (f a) g
      obtain ⟨log, _ | a⟩ := x
      · rfl
      · simp only [Logged.bind]
        cases (f a).outcome <;> simp)

@[simp] theorem outcome_map (f : α → β) (x : Logged α) :
    (f <$> x).outcome = f <$> x.outcome := by
  rw [map_eq_pure_bind, outcome_bind]
  cases x.outcome <;> rfl

@[simp] theorem outcome_mapM (f : α → Logged β) (xs : List α) :
    (xs.mapM f).outcome = xs.mapM fun a => (f a).outcome := by
  induction xs with
  | nil => rfl
  | cons a rest ih =>
      simp only [List.mapM_cons, outcome_bind, ih]
      rfl

end Logged

end RamlTypes
