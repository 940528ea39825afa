/-
  ServiceRegistry.Activity

  Computations in atomic steps over a shared state. A step sees the state, changes it, and
  chooses how to go on from what it saw; between two steps others may change the state.
  Running an activity alone is one of many ways in which its steps can be taken.
-/

namespace ServiceRegistry

/-- A computation that is done or takes a step. The next activity is chosen by the state
before the step. -/
inductive Activity (σ : Type) (α : Type)
  | done (value : α)
  | step (act : σ → σ) (next : σ → Activity σ α)

namespace Activity

variable {σ α β γ : Type}

/-- Goes on with the value of an activity. -/
def bind : Activity σ α → (α → Activity σ β) → Activity σ β
  | done a, f => f a
  | step act next, f => step act fun s => (next s).bind f

instance : Monad (Activity σ) where
  pure := done
  bind := bind

@[simp] theorem pure_eq (a : α) : (pure a : Activity σ α) = done a := rfl

@[simp] theorem done_bind (a : α) (f : α → Activity σ β) : (done a >>= f) = f a := rfl

@[simp] theorem step_bind (act : σ → σ) (next : σ → Activity σ α) (f : α → Activity σ β) :
    (step act next >>= f) = step act fun s => next s >>= f := rfl

theorem bind_done (x : Activity σ α) : (x >>= done) = x := by
  induction x with
  | done a => rfl
  | step act next ih => simp only [step_bind, ih]

theorem bind_assoc (x : Activity σ α) (f : α → Activity σ β) (g : β → Activity σ γ) :
    (x >>= f >>= g) = (x >>= fun a => f a >>= g) := by
  induction x with
  | done a => rfl
  | step act next ih => simp only [step_bind, ih]

instance : LawfulMonad (Activity σ) :=
  LawfulMonad.mk' (Activity σ) bind_done (fun _ _ => rfl) bind_assoc

/-! ## Steps -/

/-- One step that gives a value and changes the state. -/
def atomically (f : σ → α × σ) : Activity σ α :=
  step (fun s => (f s).2) fun s => done (f s).1

/-- One step that looks at the state. -/
def observe (f : σ → α) : Activity σ α := step id fun s => done (f s)

/-- One step that changes the state. -/
def change (f : σ → σ) : Activity σ Unit := step f fun _ => done ()

/-- The value of a computation that is done. -/
def value? : Activity σ α → Option α
  | done a => some a
  | step _ _ => none

theorem value?_eq_some {x : Activity σ α} {a : α} : x.value? = some a ↔ x = done a := by
  cases x <;> simp [value?]

/-! ## Running -/

/-- Takes all steps without interruption. -/
def run : Activity σ α → σ → α × σ
  | done a, s => (a, s)
  | step act next, s => (next s).run (act s)

@[simp] theorem run_done (a : α) (s : σ) : (done a : Activity σ α).run s = (a, s) := rfl

@[simp] theorem run_step (act : σ → σ) (next : σ → Activity σ α) (s : σ) :
    (step act next).run s = (next s).run (act s) := rfl

@[simp] theorem run_bind (x : Activity σ α) (f : α → Activity σ β) (s : σ) :
    (x >>= f).run s = (f (x.run s).1).run (x.run s).2 := by
  induction x generalizing s with
  | done a => rfl
  | step act next ih => simp only [step_bind, run_step, ih]

@[simp] theorem run_atomically (f : σ → α × σ) (s : σ) : (atomically f).run s = f s := rfl

@[simp] theorem run_observe (f : σ → α) (s : σ) : (observe f).run s = (f s, s) := rfl

@[simp] theorem run_change (f : σ → σ) (s : σ) : (change f).run s = ((), f s) := rfl

end Activity

end ServiceRegistry
