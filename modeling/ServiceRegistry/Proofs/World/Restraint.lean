/-
  ServiceRegistry.Proofs.World.Restraint

  Whether an activity has changed anything. The ghost of the rule `Touches` is a flag that is
  set when a step changes the world; a step may also set it for nothing. So an activity that
  has come to its end with the flag unset has left everything as it found it, step by step,
  whatever others did in between.

  Only the operations that may be refused need care: a refusal leaves the flag as it is. What
  comes after the last possible refusal may do anything (`touches_any`).
-/
import ServiceRegistry.Proofs.World.Ghost

namespace ServiceRegistry.World

/-! ## The flag -/

/-- A step leaves the world and the flag as they are, or the flag is set after it. -/
def Touches (touched : Bool) (w w' : World) (touched' : Bool) : Prop :=
  touched' = true ∨ touched' = touched ∧ w' = w

section

variable {α : Type} {touched : Bool}

theorem touches_observe (f : World → α) :
    Follows Touches (fun _ touched' => touched' = touched) touched (.observe f) :=
  follows_observe fun _ => ⟨touched, .inr ⟨rfl, rfl⟩, rfl⟩

theorem touches_any (x : Work α) : Follows Touches (fun _ _ => True) touched x := by
  induction x generalizing touched with
  | done a => trivial
  | step act next ih => exact fun w => ⟨true, .inl rfl, ih w⟩

/-- A step on the inventory that is refused changes nothing. -/
theorem touches_tryInventory (f : Inventory → Except RegistryError (α × Inventory)) :
    Follows Touches (fun result touched' => (∃ e, result = .error e) → touched' = touched)
      touched (tryInventory f) := by
  refine follows_atomically fun w => ?_
  dsimp only
  cases f w.inventory with
  | error e => exact ⟨touched, .inr ⟨rfl, rfl⟩, fun _ => rfl⟩
  | ok r =>
    refine ⟨true, .inl rfl, ?_⟩
    rintro ⟨e, he⟩
    cases he

/-- A service with a name is never refused. -/
theorem touches_enrol {service : Service} (hname : service.name ≠ "") (endpoint : Endpoint)
    (capabilities : List Capability) :
    Follows Touches (fun result _ => ∃ r, result = .ok r) touched
      (enrol service endpoint capabilities) := by
  refine follows_bind (touches_any readClock) fun now _ _ => ?_
  refine follows_atomically fun w => ⟨true, .inl rfl, ?_⟩
  simp only [Inventory.enrol, hname, if_false]
  exact ⟨_, rfl⟩

theorem touches_withdraw (cfg : Settings) (id : InstanceId) :
    Follows Touches (fun result touched' => (∃ e, result = .error e) → touched' = touched)
      touched (withdraw cfg id) := by
  refine follows_bind (touches_observe _) fun now touched' h => ?_
  subst h
  exact touches_tryInventory _

end

/-! ## Others at work -/

/-- Takes all steps of an activity, the `n`th one after others have changed the world as they
    like. Gives the value, and what each of the steps found and left. -/
def ownSteps {α : Type} : Work α → (Nat → World → World) → World → α × List (World × World)
  | .done a, _, _ => (a, [])
  | .step act next, others, w =>
    let met := others 0 w
    let rest := ownSteps (next met) (fun n => others (n + 1)) (act met)
    (rest.1, (met, act met) :: rest.2)

section

variable {α : Type} {post : α → Bool → Prop} {touched : Bool} {x : Work α}

theorem Follows.ownSteps (h : Follows Touches post touched x) (others : Nat → World → World)
    (w : World) :
    ∃ touched', post (World.ownSteps x others w).1 touched' ∧
      (touched' = false →
        touched = false ∧ ∀ s ∈ (World.ownSteps x others w).2, s.2 = s.1) := by
  induction x generalizing touched others w with
  | done a => exact ⟨touched, h, fun htouched => ⟨htouched, List.forall_mem_nil _⟩⟩
  | step act next ih =>
    obtain ⟨touched₁, hstep, hnext⟩ := h (others 0 w)
    obtain ⟨touched', hpost, hrest⟩ :=
      ih _ hnext (fun n => others (n + 1)) (act (others 0 w))
    refine ⟨touched', hpost, fun huntouched => ?_⟩
    -- A flag that is unset at the end was unset after this step, so the step did nothing.
    obtain ⟨hunset, hsteps⟩ := hrest huntouched
    rcases hstep with hset | ⟨hkept, hsame⟩
    · rw [hset] at hunset
      cases hunset
    · exact ⟨hkept.symm.trans hunset, List.forall_mem_cons.2 ⟨hsame, hsteps⟩⟩

/-- Without others, what is not touched is the same at the end as at the beginning. -/
theorem Follows.run_touches (h : Follows Touches post false x) (w : World) :
    ∃ touched, post (x.run w).1 touched ∧ (touched = false → (x.run w).2 = w) := by
  refine Follows.run (P := fun touched w' => touched = false → w' = w) ?_ h fun _ => rfl
  rintro g w₁ w₂ g' (hset | ⟨rfl, rfl⟩) hw huntouched
  · rw [hset] at huntouched
    cases huntouched
  · exact hw huntouched

end

end ServiceRegistry.World
