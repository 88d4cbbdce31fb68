import Mathlib.Data.List.Perm.Basic
import RamlTypes.Log.Logged

/-!
# Outcomes of steps and traversals

A computation of several steps returns exactly when each of its steps does, and a traversal relates
its elements to its results one by one. Two computations are compared step by step: they fail
alike, or both return. Where a computation can only end with a defect of the schema or a number that
cannot be written, two conditions say how it ends.
-/
namespace RamlTypes

variable {ε α β : Type}

@[simp] theorem ok_bind (a : α) (f : α → Except ε β) : (Except.ok a >>= f) = f a := rfl

@[simp] theorem error_bind (fault : ε) (f : α → Except ε β) :
    (Except.error fault >>= f) = .error fault := rfl

@[simp] theorem map_ok (f : α → β) (a : α) : (f <$> (Except.ok a : Except ε α)) = .ok (f a) := rfl

@[simp] theorem map_error (f : α → β) (fault : ε) :
    (f <$> (Except.error fault : Except ε α)) = .error fault := rfl

theorem bind_ok_iff (x : Except ε α) (f : α → Except ε β) (b : β) :
    (x >>= f) = .ok b ↔ ∃ a, x = .ok a ∧ f a = .ok b := by
  cases x <;> simp [bind, Except.bind]

theorem map_ok_iff (f : α → β) (x : Except ε α) (b : β) :
    (f <$> x) = .ok b ↔ ∃ a, x = .ok a ∧ f a = b := by
  cases x <;> simp [Functor.map, Except.map]

/-- A fault that is only wrapped does not change what is returned. -/
theorem mapError_ok_iff {ε' : Type} {wrap : ε → ε'} {x : Except ε α} {a : α} :
    x.mapError wrap = .ok a ↔ x = .ok a := by
  cases x <;> simp [Except.mapError]

/-- Of a closed run it is enough to evaluate what is asked of its result. -/
theorem exists_of_toOption_map {x : Except ε α} {f : α → β} {b : β}
    (run : (x.map f).toOption = some b) : ∃ a, x = .ok a ∧ f a = b := by
  cases x with
  | error fault => cases run
  | ok a => exact ⟨a, rfl, Option.some.inj run⟩

/-- A traversal that returns relates every element to its result. -/
theorem mapM_ok_iff (step : α → Except ε β) (inputs : List α) (results : List β) :
    inputs.mapM step = .ok results ↔
      List.Forall₂ (fun input result => step input = .ok result) inputs results := by
  induction inputs generalizing results with
  | nil => simp [pure, Except.pure, eq_comm]
  | cons input rest ih =>
    simp only [List.mapM_cons, bind_ok_iff, ih, List.forall₂_cons_left_iff]
    constructor
    · rintro ⟨result, here, later, there, made⟩
      cases made
      exact ⟨result, later, here, there, rfl⟩
    · rintro ⟨result, later, here, there, rfl⟩
      exact ⟨result, here, later, there, rfl⟩

theorem exists_of_mem_left {related : α → β → Prop} {xs : List α} {ys : List β}
    (pointwise : List.Forall₂ related xs ys) {x : α} (member : x ∈ xs) :
    ∃ y ∈ ys, related x y := by
  induction pointwise with
  | nil => simp at member
  | @cons x' y xs ys here _ ih =>
    rcases List.mem_cons.mp member with rfl | later
    -- Repeated elements may have different results, so the pair is the one of the first place.
    · exact ⟨y, by simp, here⟩
    · obtain ⟨y', later', found⟩ := ih later
      exact ⟨y', by simp [later'], found⟩

theorem exists_of_mem_right {related : α → β → Prop} {xs : List α} {ys : List β}
    (pointwise : List.Forall₂ related xs ys) {y : β} (member : y ∈ ys) :
    ∃ x ∈ xs, related x y :=
  exists_of_mem_left pointwise.flip member

/-- What is related to a list with one more element has one more element itself. -/
theorem forall₂_concat_left {related : α → β → Prop} {xs : List α} {x : α} {zs : List β}
    (pointwise : List.Forall₂ related (xs ++ [x]) zs) :
    ∃ ys y, zs = ys ++ [y] ∧ List.Forall₂ related xs ys ∧ related x y := by
  induction xs generalizing zs with
  | nil =>
    cases pointwise with
    | cons here rest =>
      cases rest
      exact ⟨[], _, rfl, .nil, here⟩
  | cons first xs ih =>
    cases pointwise with
    | cons here rest =>
      obtain ⟨ys, y, rfl, there, last⟩ := ih rest
      exact ⟨_ :: ys, y, rfl, .cons here there, last⟩

theorem map_eq_of_forall₂ {γ : Type} {f : α → γ} {f' : β → γ} {xs : List α} {ys : List β}
    (same : List.Forall₂ (fun a b => f' b = f a) xs ys) : ys.map f' = xs.map f := by
  induction same with
  | nil => rfl
  | cons here _ ih => rw [List.map_cons, List.map_cons, here, ih]

theorem filterMap_eq_of_forall₂ {γ : Type} {f : α → Option γ} {f' : β → Option γ}
    {xs : List α} {ys : List β} (same : List.Forall₂ (fun a b => f' b = f a) xs ys) :
    ys.filterMap f' = xs.filterMap f := by
  induction same with
  | nil => rfl
  | cons here _ ih => rw [List.filterMap_cons, List.filterMap_cons, here, ih]

theorem flatMap_eq_of_forall₂ {γ : Type} {f : α → List γ} {f' : β → List γ} {xs : List α}
    {ys : List β} (same : List.Forall₂ (fun a b => f' b = f a) xs ys) :
    ys.flatMap f' = xs.flatMap f := by
  rw [List.flatMap_def, List.flatMap_def, map_eq_of_forall₂ same]

theorem rel_head? {related : α → β → Prop} {xs : List α} {ys : List β}
    (pointwise : List.Forall₂ related xs ys) : Option.Rel related xs.head? ys.head? := by
  cases pointwise with
  | nil => exact .none
  | cons here _ => exact .some here

theorem map_eq_of_rel {f : α → β} {x : Option α} {y : Option β}
    (same : Option.Rel (fun a b => f a = b) x y) : x.map f = y := by
  cases same with
  | none => rfl
  | some here => exact congrArg some here

/-- The result of an element of a traversal that returns. -/
theorem result_of_mem {f : α → Except ε β} {xs : List α} {ys : List β}
    (returned : xs.mapM f = .ok ys) {x : α} (member : x ∈ xs) : ∃ y ∈ ys, f x = .ok y :=
  exists_of_mem_left ((mapM_ok_iff f xs ys).mp returned) member

/-- The element that a result of a traversal belongs to. -/
theorem source_of_mem {f : α → Except ε β} {xs : List α} {ys : List β}
    (returned : xs.mapM f = .ok ys) {y : β} (member : y ∈ ys) : ∃ x ∈ xs, f x = .ok y :=
  exists_of_mem_right ((mapM_ok_iff f xs ys).mp returned) member

/-- Where each element is related to something, the elements are related to a list. -/
theorem exists_forall₂ {related : α → β → Prop} {xs : List α}
    (each : ∀ x ∈ xs, ∃ y, related x y) : ∃ ys, List.Forall₂ related xs ys := by
  induction xs with
  | nil => exact ⟨[], .nil⟩
  | cons x xs ih =>
    obtain ⟨y, here⟩ := each x (by simp)
    obtain ⟨ys, there⟩ := ih fun x' member => each x' (by simp [member])
    exact ⟨y :: ys, .cons here there⟩

theorem mapM_returns {f : α → Except ε β} {xs : List α}
    (returns : ∀ x ∈ xs, ∃ y, f x = .ok y) : ∃ ys, xs.mapM f = .ok ys := by
  obtain ⟨ys, pointwise⟩ := exists_forall₂ returns
  exact ⟨ys, (mapM_ok_iff f xs ys).mpr pointwise⟩

theorem mapM_congr {f g : α → Except ε β} {xs : List α} (same : ∀ x ∈ xs, f x = g x) :
    xs.mapM f = xs.mapM g := by
  induction xs with
  | nil => rfl
  | cons x xs ih =>
    rw [List.mapM_cons, List.mapM_cons, same x List.mem_cons_self,
      ih fun x' member => same x' (List.mem_cons_of_mem _ member)]

/-- Traversing the elements in another order gives the same results in another order. -/
theorem mapM_perm {f : α → Except ε β} {xs ys : List α} {results : List β} (perm : xs.Perm ys)
    (returned : xs.mapM f = .ok results) :
    ∃ results', ys.mapM f = .ok results' ∧ results.Perm results' := by
  have pointwise := (mapM_ok_iff f xs results).mp returned
  obtain ⟨results', pointwise', permuted⟩ := List.perm_comp_forall₂ perm.symm pointwise
  exact ⟨results', (mapM_ok_iff f ys results').mpr pointwise', permuted.symm⟩

/-- The results for some of the elements are those of the whole traversal that belong to them. -/
theorem mapM_filter {f : α → Except ε β} {keep : α → Bool} {keep' : β → Bool}
    {xs : List α} {ys : List β} (returned : xs.mapM f = .ok ys)
    (same : ∀ x y, f x = .ok y → keep' y = keep x) :
    (xs.filter keep).mapM f = .ok (ys.filter keep') := by
  rw [mapM_ok_iff] at returned ⊢
  induction returned with
  | nil => exact .nil
  | @cons x y xs ys here _ ih =>
    cases kept : keep x with
    | true =>
      rw [List.filter_cons_of_pos kept, List.filter_cons_of_pos ((same x y here).trans kept)]
      exact .cons here ih
    | false =>
      rw [List.filter_cons_of_neg (by simp [kept]),
        List.filter_cons_of_neg (by simp [same x y here, kept])]
      exact ih

/-- A traversal that fails has the fault of one of its elements. -/
theorem mapM_error {f : α → Except ε β} {xs : List α} {fault : ε}
    (failed : xs.mapM f = .error fault) : ∃ x ∈ xs, f x = .error fault := by
  induction xs with
  | nil => simp [pure, Except.pure] at failed
  | cons x xs ih =>
    rw [List.mapM_cons] at failed
    -- The fault is the one of the first element that fails: those before it have returned.
    cases here : f x with
    | error other =>
      rw [here] at failed
      cases failed
      exact ⟨x, by simp, here⟩
    | ok y =>
      cases there : xs.mapM f with
      | error other =>
        rw [here, there] at failed
        cases failed
        obtain ⟨x', member, found⟩ := ih there
        exact ⟨x', by simp [member], found⟩
      | ok ys =>
        rw [here, there] at failed
        cases failed

/-! ### Two computations -/

section Alike

variable {γ δ : Type} {related : α → β → Prop} {related' : γ → δ → Prop}

/-- Two computations fail with the same fault, or return results that are related. -/
inductive Alike (related : α → β → Prop) : Except ε α → Except ε β → Prop where
  | failed (fault : ε) : Alike related (.error fault) (.error fault)
  | returned {a : α} {b : β} (same : related a b) : Alike related (.ok a) (.ok b)

theorem alike_ok_iff {a : α} {b : β} :
    Alike related (.ok a : Except ε α) (.ok b) ↔ related a b := by
  constructor
  · rintro (_ | same)
    exact same
  · exact .returned

theorem Alike.bind {x : Except ε α} {y : Except ε β} {f : α → Except ε γ} {g : β → Except ε δ}
    (ends : Alike related x y) (next : ∀ a b, related a b → Alike related' (f a) (g b)) :
    Alike related' (x >>= f) (y >>= g) := by
  cases ends with
  | failed fault => exact .failed fault
  | returned same => exact next _ _ same

theorem Alike.imp {weaker : α → β → Prop} {x : Except ε α} {y : Except ε β}
    (ends : Alike related x y) (implies : ∀ a b, related a b → weaker a b) : Alike weaker x y := by
  cases ends with
  | failed fault => exact .failed fault
  | returned same => exact .returned (implies _ _ same)

/-- A step that is the same in both does not change how they end. -/
theorem Alike.bind_same {x : Except ε α} {f : α → Except ε γ} {g : α → Except ε δ}
    (next : ∀ a, x = .ok a → Alike related' (f a) (g a)) : Alike related' (x >>= f) (x >>= g) := by
  cases x with
  | error fault => exact .failed fault
  | ok a => exact next a rfl

theorem Alike.refl {related : α → α → Prop} (same : ∀ a, related a a) (x : Except ε α) :
    Alike related x x := by
  cases x with
  | error fault => exact .failed fault
  | ok a => exact .returned (same a)

/-- The results that are related are those of the two computations. -/
theorem Alike.attach {x : Except ε α} {y : Except ε β} (ends : Alike related x y) :
    Alike (fun a b => related a b ∧ x = .ok a ∧ y = .ok b) x y := by
  cases ends with
  | failed fault => exact .failed fault
  | returned same => exact .returned ⟨same, rfl, rfl⟩

/-- Two computations are alike by a function where the one is the function of the other. -/
theorem alike_map_iff {f : α → β} {x : Except ε α} {y : Except ε β} :
    Alike (fun a b => f a = b) x y ↔ y = f <$> x := by
  constructor
  · intro ends
    cases ends with
    | failed fault => rfl
    | returned same => exact congrArg Except.ok same.symm
  · rintro rfl
    cases x with
    | error fault => exact .failed fault
    | ok a => exact .returned rfl

theorem Alike.map {x : Except ε α} {y : Except ε β} {f : α → γ} {g : β → δ}
    (ends : Alike related x y) (keeps : ∀ a b, related a b → related' (f a) (g b)) :
    Alike related' (f <$> x) (g <$> y) := by
  cases ends with
  | failed fault => exact .failed fault
  | returned same => exact .returned (keeps _ _ same)

theorem Alike.mapError {ε' : Type} {x : Except ε α} {y : Except ε β} (ends : Alike related x y)
    (wrap : ε → ε') : Alike related (x.mapError wrap) (y.mapError wrap) := by
  cases ends with
  | failed fault => exact .failed (wrap fault)
  | returned same => exact .returned same

theorem Alike.map_same {x : Except ε α} {f : α → γ} {g : α → δ}
    (keeps : ∀ a, related' (f a) (g a)) : Alike related' (f <$> x) (g <$> x) := by
  cases x with
  | error fault => exact .failed fault
  | ok a => exact .returned (keeps a)

theorem Alike.of_eq {related : α → α → Prop} {x y : Except ε α} (refl : ∀ a, related a a)
    (same : x = y) : Alike related x y :=
  same ▸ .refl refl x

theorem alike_eq_iff {x y : Except ε α} : Alike Eq x y ↔ x = y := by
  constructor
  · rintro (_ | rfl) <;> rfl
  · exact .of_eq fun _ => rfl

theorem Alike.mapM_forall₂ {f : α → Except ε γ} {g : β → Except ε δ} {xs : List α} {ys : List β}
    (each : List.Forall₂ (fun x y => Alike related' (f x) (g y)) xs ys) :
    Alike (List.Forall₂ related') (xs.mapM f) (ys.mapM g) := by
  induction each with
  | nil => exact .returned .nil
  | cons first _ ih =>
    rw [List.mapM_cons, List.mapM_cons]
    exact first.bind fun _ _ here => ih.map fun _ _ there => .cons here there

theorem Alike.mapM {f : γ → Except ε α} {g : γ → Except ε β} {xs : List γ}
    (each : ∀ x ∈ xs, Alike related (f x) (g x)) :
    Alike (List.Forall₂ related) (xs.mapM f) (xs.mapM g) :=
  .mapM_forall₂ (List.forall₂_same.mpr each)

theorem mapM_eq_of_forall₂ {f : α → Except ε γ} {g : β → Except ε γ} {xs : List α} {ys : List β}
    (each : List.Forall₂ (fun x y => f x = g y) xs ys) : xs.mapM f = ys.mapM g := by
  have ends := Alike.mapM_forall₂ (each.imp fun _ _ => alike_eq_iff.mpr)
  rwa [List.forall₂_eq_eq_eq, alike_eq_iff] at ends

end Alike

/-! ### Defects and long numbers -/

/-- The least integer with too many digits. -/
def Scalar.longInteger : Scalar := .int (Nat.pow 10 maxIntegerDigits)

theorem Scalar.isPrintable_longInteger : longInteger.isPrintable = false := by decide +kernel

section Rejections

variable {wrap : ReadFault → ε} {p q long long' : Prop} {x : Except ε α}

/-- The computation ends with a defect of the schema only if there is one, and with a number that
cannot be written only if there is one. It returns exactly if there is neither. -/
inductive RejectedBy (wrap : ReadFault → ε) (defective long : Prop) : Except ε α → Prop where
  | defect {error : SchemaError} (bad : defective) :
      RejectedBy wrap defective long (.error (wrap (.defect error)))
  | longNumber (unwritable : long) : RejectedBy wrap defective long (.error (wrap .longNumber))
  | returned {a : α} (sound : ¬ defective) (writable : ¬ long) :
      RejectedBy wrap defective long (.ok a)

namespace RejectedBy

theorem congr (ends : RejectedBy wrap p long x) (same : p ↔ q) (same' : long ↔ long') :
    RejectedBy wrap q long' x := by
  rwa [← same, ← same']

theorem returns_iff (ends : RejectedBy wrap p long x) : (∃ a, x = .ok a) ↔ ¬ p ∧ ¬ long := by
  cases ends with
  | defect bad => exact iff_of_false (by simp) fun fine => fine.1 bad
  | longNumber unwritable => exact iff_of_false (by simp) fun fine => fine.2 unwritable
  | returned sound writable => exact iff_of_true ⟨_, rfl⟩ ⟨sound, writable⟩

theorem fault_of_error (ends : RejectedBy wrap p long x) {fault : ε} (failed : x = .error fault) :
    (p ∧ ∃ error, fault = wrap (.defect error)) ∨ long ∧ fault = wrap .longNumber := by
  cases ends with
  | defect bad => exact .inl ⟨bad, _, (Except.error.inj failed).symm⟩
  | longNumber unwritable => exact .inr ⟨unwritable, (Except.error.inj failed).symm⟩
  | returned => cases failed

/-- Where all numbers can be written, there is a defect or a result. -/
theorem rejected_iff (ends : RejectedBy wrap p long x) (writable : ¬ long) :
    (∃ error, x = .error (wrap (.defect error))) ↔ p := by
  cases ends with
  | defect bad => exact iff_of_true ⟨_, rfl⟩ bad
  | longNumber unwritable => exact absurd unwritable writable
  | returned sound _ => exact iff_of_false (by simp) sound

theorem of_returns {a : α} (returned : x = .ok a) (sound : ¬ p) (writable : ¬ long) :
    RejectedBy wrap p long x :=
  returned ▸ .returned sound writable

theorem map (ends : RejectedBy wrap p long x) (f : α → β) : RejectedBy wrap p long (f <$> x) := by
  cases ends with
  | defect bad => exact .defect bad
  | longNumber unwritable => exact .longNumber unwritable
  | returned sound writable => exact .returned sound writable

theorem bind {f : α → Except ε β} (ends : RejectedBy wrap p long x)
    (next : ∀ a, x = .ok a → RejectedBy wrap q long' (f a)) :
    RejectedBy wrap (p ∨ q) (long ∨ long') (x >>= f) := by
  cases ends with
  | defect bad => exact .defect (.inl bad)
  | longNumber unwritable => exact .longNumber (.inl unwritable)
  -- The first step has no defect and no long number, so only those of the second are left.
  | returned sound writable => exact (next _ rfl).congr (by simp [sound]) (by simp [writable])

/-- Steps that return do not change how a computation ends. -/
theorem bind_returns {f : α → Except ε β} (ends : RejectedBy wrap p long x)
    (returns : ∀ a, ∃ b, f a = .ok b) : RejectedBy wrap p long (x >>= f) := by
  have next (a : α) (_ : x = .ok a) : RejectedBy wrap False False (f a) := by
    obtain ⟨b, made⟩ := returns a
    exact .of_returns made id id
  exact (ends.bind next).congr (by simp) (by simp)

theorem mapM {p long : α → Prop} {f : α → Except ε β} {xs : List α}
    (ends : ∀ x ∈ xs, RejectedBy wrap (p x) (long x) (f x)) :
    RejectedBy wrap (∃ x ∈ xs, p x) (∃ x ∈ xs, long x) (xs.mapM f) := by
  induction xs with
  | nil => exact .of_returns rfl (by simp) (by simp)
  | cons x xs ih =>
    have tail := ih fun x' member => ends x' (by simp [member])
    rw [List.mapM_cons]
    refine ((ends x (by simp)).bind fun y _ => tail.map (y :: ·)).congr ?_ ?_ <;> simp

theorem mapError {x : Except ReadFault α} (ends : RejectedBy id p long x) (wrap : ReadFault → ε) :
    RejectedBy wrap p long (x.mapError wrap) := by
  cases ends with
  | defect bad => exact .defect bad
  | longNumber unwritable => exact .longNumber unwritable
  | returned sound writable => exact .returned sound writable

end RejectedBy

end Rejections

end RamlTypes
