/-
  ServiceRegistry.Proofs.World.Steps

  What the single steps of an activity may do to the inventory, whatever happens between
  them. `Steps P x` says that each step of `x`, taken in any world, performs one event with
  the property `P` on the inventory, or none. It is a property of the activity alone and so
  holds however its steps are interleaved with those of others. The operations of a
  registry come with the events that their steps perform.
-/
import ServiceRegistry.Proofs.Inventory.Action
import ServiceRegistry.World

namespace ServiceRegistry.World

open Inventory (Action Answer Event Moment)

/-! ## Steps and events -/

/-- The second inventory is the first one, or the first one after an event. -/
def Changes (policy : Policy) (P : Event → Prop) (inv inv' : Inventory) : Prop :=
  inv' = inv ∨ ∃ e, P e ∧ inv' = (Moment.mk e inv).after policy

/-- Each step performs at most one event on the inventory, one with the property. -/
def Steps {α : Type} (policy : Policy) (P : Event → Prop) : Work α → Prop
  | .done _ => True
  | .step act next =>
    ∀ w, Changes policy P w.inventory (act w).inventory ∧ Steps policy P (next w)

section

variable {α β : Type} {policy : Policy} {P : Event → Prop}

theorem steps_pure (a : α) : Steps policy P (pure a) := trivial

theorem steps_bind {x : Work α} {f : α → Work β} (hx : Steps policy P x)
    (hf : ∀ a, Steps policy P (f a)) : Steps policy P (x >>= f) := by
  -- Along the steps of `x`, whose next activity is chosen by the world it is taken in.
  induction x with
  | done a => exact hf a
  | step act next ih =>
    intro w
    exact ⟨(hx w).1, ih w (hx w).2⟩

theorem Steps.mono {Q : Event → Prop} {x : Work α} (h : Steps policy P x)
    (hPQ : ∀ e, P e → Q e) : Steps policy Q x := by
  induction x with
  | done a => trivial
  | step act next ih =>
    intro w
    refine ⟨(h w).1.imp_right ?_, ih w (h w).2⟩
    rintro ⟨e, he, heq⟩
    exact ⟨e, hPQ e he, heq⟩

theorem steps_observe (f : World → α) : Steps policy P (.observe f) :=
  fun _ => ⟨.inl rfl, trivial⟩

theorem steps_change {f : World → World} (h : ∀ w, (f w).inventory = w.inventory) :
    Steps policy P (.change f) :=
  fun w => ⟨.inl (h w), trivial⟩

theorem steps_atomically {f : World → α × World} (h : ∀ w, (f w).2.inventory = w.inventory) :
    Steps policy P (.atomically f) :=
  fun w => ⟨.inl (h w), trivial⟩

/-! ## Steps that leave the inventory alone -/

theorem steps_readClock : Steps policy P readClock := steps_observe _

theorem steps_look (f : Inventory → α) : Steps policy P (look f) := steps_observe _

theorem steps_count (f : Metrics → Metrics) : Steps policy P (count f) :=
  steps_change fun _ => rfl

theorem steps_gauge : Steps policy P gauge := steps_change fun _ => rfl

theorem steps_probe (c : Candidate) : Steps policy P (probe c) := steps_atomically fun _ => rfl

theorem steps_requestShutdown (e : Endpoint) : Steps policy P (requestShutdown e) :=
  steps_atomically fun _ => rfl

theorem steps_refreshScrapes (cfg : Settings) : Steps policy P (refreshScrapes cfg) :=
  steps_bind (steps_look _) fun _ => steps_change fun _ => rfl

theorem steps_refresh (cfg : Settings) : Steps policy P (refresh cfg) :=
  steps_bind (steps_refreshScrapes cfg) fun _ => steps_gauge

/-! ## Steps on the inventory -/

theorem steps_onInventory {f : Inventory → α × Inventory}
    (h : ∀ inv, Changes policy P inv (f inv).2) : Steps policy P (onInventory f) :=
  fun w => ⟨h w.inventory, trivial⟩

/-- What is refused leaves the inventory alone, in an event as in a step. -/
theorem steps_tryInventory {f : Inventory → Except RegistryError (α × Inventory)} {e : Event}
    {answer : Except RegistryError α → Answer} (he : P e)
    (h : ∀ inv, e.perform policy inv = Inventory.attempt inv answer (f inv)) :
    Steps policy P (tryInventory f) := by
  apply steps_onInventory
  intro inv
  refine .inr ⟨e, he, ?_⟩
  -- Both sides keep the inventory when the change is refused.
  show _ = (e.perform policy inv).2
  rw [h inv]
  cases f inv <;> rfl

theorem steps_enrol {service : Service} {endpoint : Endpoint} {capabilities : List Capability}
    (h : ∀ now, P ⟨now, .enrol service endpoint capabilities⟩) :
    Steps policy P (enrol service endpoint capabilities) :=
  steps_bind steps_readClock fun now => steps_tryInventory (h now) fun _ => rfl

end

section

variable {cfg : Settings} {P : Event → Prop}

theorem steps_withdraw {id : InstanceId} (h : ∀ now, P ⟨now, .withdraw id⟩) :
    Steps cfg.policy P (withdraw cfg id) :=
  steps_bind steps_readClock fun now => steps_tryInventory (h now) fun _ => rfl

theorem steps_withdrawPorts {host : String} {ports : List UInt16}
    (h : ∀ now, P ⟨now, .withdrawPorts host ports⟩) :
    Steps cfg.policy P (withdrawPorts cfg host ports) :=
  steps_bind steps_readClock fun now => steps_onInventory fun _ => .inr ⟨_, h now, rfl⟩

theorem steps_sweep (h : ∀ now, P ⟨now, .sweep⟩) : Steps cfg.policy P (sweep cfg) :=
  steps_bind steps_readClock fun now => steps_onInventory fun _ => .inr ⟨_, h now, rfl⟩

theorem steps_noteProbe {policy : Policy} {id : InstanceId} {success : Bool}
    (h : ∀ now, P ⟨now, .noteProbe id success⟩) :
    Steps policy P (noteProbe id success) :=
  steps_bind steps_readClock fun now => steps_onInventory fun _ => .inr ⟨_, h now, rfl⟩

end

end ServiceRegistry.World
