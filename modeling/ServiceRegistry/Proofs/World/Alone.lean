/-
  ServiceRegistry.Proofs.World.Alone

  One activity with no other at work. Time passes all the same, and the instances out there
  react as they like, so the clocks and the fleet may be different before each step.
-/
import ServiceRegistry.Proofs.World.Ghost

namespace ServiceRegistry.World

/-- What changes by itself at any time. -/
structure Drift where
  clock : UInt64
  unixTime : UInt64
  fleet : Fleet

/-- The world after a drift. -/
def Drift.after (d : Drift) (w : World) : World :=
  { w with clock := d.clock, unixTime := d.unixTime, fleet := d.fleet }

/-- Takes all steps of an activity, the `n`th one after the `n`th drift. -/
def runAlone {α : Type} : Work α → (Nat → Drift) → World → α × World
  | .done a, _, w => (a, w)
  | .step act next, drifts, w =>
    runAlone (next ((drifts 0).after w)) (fun n => drifts (n + 1)) (act ((drifts 0).after w))

/-- The number of steps that an activity takes. -/
def duration {α : Type} : Work α → (Nat → Drift) → World → Nat
  | .done _, _, _ => 0
  | .step act next, drifts, w =>
    duration (next ((drifts 0).after w)) (fun n => drifts (n + 1)) (act ((drifts 0).after w)) + 1

section

variable {α β : Type}

/-- The second of two activities begins where the first one ends, with what is left of the
    drifts. -/
theorem runAlone_bind (x : Work α) (f : α → Work β) (drifts : Nat → Drift) (w : World) :
    runAlone (x >>= f) drifts w =
      runAlone (f (runAlone x drifts w).1) (fun n => drifts (n + duration x drifts w))
        (runAlone x drifts w).2 := by
  induction x generalizing drifts w with
  | done a => rfl
  | step act next ih =>
    exact ih ((drifts 0).after w) (fun n => drifts (n + 1)) (act ((drifts 0).after w))

theorem runAlone_bind_pure (x : Work α) (f : α → β) (drifts : Nat → Drift) (w : World) :
    runAlone (x >>= fun a => pure (f a)) drifts w =
      (f (runAlone x drifts w).1, (runAlone x drifts w).2) := by
  rw [runAlone_bind]
  rfl

/-- A step on the inventory that is not refused. -/
theorem runAlone_tryInventory {change : Inventory → Except RegistryError (α × Inventory)} {a : α}
    {inv : Inventory} {w : World} (h : change w.inventory = .ok (a, inv))
    (f : Except RegistryError α → Work β) (drifts : Nat → Drift) :
    runAlone (tryInventory change >>= f) drifts w =
      runAlone (f (.ok a)) (fun n => drifts (n + 1))
        { (drifts 0).after w with inventory := inv } := by
  have hmet : change ((drifts 0).after w).inventory = .ok (a, inv) := h
  simp only [tryInventory, onInventory, Activity.atomically, Activity.step_bind,
    Activity.done_bind, runAlone, hmet]

/-- What every step and every drift keeps holds when the activity has come to its end. -/
theorem Follows.runAlone {γ : Type} {rule : γ → World → World → γ → Prop}
    {post : α → γ → Prop} {g : γ} {x : Work α} (h : Follows rule post g x)
    {P : γ → World → Prop} (hrule : ∀ g w w' g', rule g w w' g' → P g w → P g' w')
    (hdrift : ∀ g w (d : Drift), P g w → P g (d.after w)) (drifts : Nat → Drift) {w : World}
    (hP : P g w) :
    ∃ g', post (World.runAlone x drifts w).1 g' ∧ P g' (World.runAlone x drifts w).2 := by
  induction x generalizing g drifts w with
  | done a => exact ⟨g, h, hP⟩
  | step act next ih =>
    obtain ⟨g', hstep, hnext⟩ := h ((drifts 0).after w)
    have hmet := hdrift g w (drifts 0) hP
    exact ih _ hnext (fun n => drifts (n + 1)) (hrule g _ _ g' hstep hmet)

theorem runAlone_inventory (policy : Policy) {x : Work α} (h : Steps policy (fun _ => False) x)
    (drifts : Nat → Drift) (w : World) : (runAlone x drifts w).2.inventory = w.inventory := by
  let rule (_ : Unit) (w w' : World) (_ : Unit) : Prop := w'.inventory = w.inventory
  have hfollows : Follows rule (fun _ g => g = ()) () x := follows_of_steps (fun _ _ h => h) h
  obtain ⟨-, -, hsame⟩ := Follows.runAlone hfollows
    (P := fun _ w' => w'.inventory = w.inventory) (fun _ _ _ _ hstep hw => hstep.trans hw)
    (fun _ _ _ hw => hw) drifts rfl
  exact hsame

end

end ServiceRegistry.World
