/-
  ServiceRegistry.Proofs.World.Atomic

  Activities that do all they do to the inventory in one step, and decide on their answer in
  this step as well: an `Atomic` activity may read the clock before, and it may do other
  things after. What it does in its decisive step is given by a function of the reading and
  the inventory, and run without interruption it does just that (`Atomic.run`).

  The property is put together along the text of an activity: `Decides` for what comes up to
  the decision, `decides_after` for what follows it.
-/
import ServiceRegistry.Proofs.World.Ghost

namespace ServiceRegistry.World

variable {α : Type}

/-! ## Stages -/

/-- How far an activity has got towards its decisive step. -/
inductive Stage (α : Type)
  | before
  /-- The clock has been read. -/
  | timed (now : UInt64)
  | decided (answer : α)

/-- How a step may treat the inventory, and the stage after it. What the activity is to do at
    once is given by `f`: the answer and the inventory after it. -/
inductive Enters (f : UInt64 → Inventory → α × Inventory) :
    Stage α → World → World → Stage α → Prop
  | time {w w' : World} (hinventory : w'.inventory = w.inventory) :
    Enters f .before w w' (.timed w.clock)
  | decide {now : UInt64} {w w' : World} (hinventory : w'.inventory = (f now w.inventory).2) :
    Enters f (.timed now) w w' (.decided (f now w.inventory).1)
  | atOnce {w w' : World} (hinventory : w'.inventory = (f w.clock w.inventory).2) :
    Enters f .before w w' (.decided (f w.clock w.inventory).1)
  | rest {a : α} {w w' : World} (hinventory : w'.inventory = w.inventory) :
    Enters f (.decided a) w w' (.decided a)

/-- The answer is the one decided on. An activity that decides nothing changes nothing. -/
def Ends (f : UInt64 → Inventory → α × Inventory) (a : α) : Stage α → Prop
  | .before => ∀ now inv, f now inv = (a, inv)
  | .timed _ => False
  | .decided b => b = a

/-- The activity does in one step what `f` says. -/
def Atomic (f : UInt64 → Inventory → α × Inventory) (x : Work α) : Prop :=
  Follows (Enters f) (Ends f) .before x

/-! ## Without interruption -/

/-- What is known at a stage if the activity began in the world `w₀` and only its own steps
    have been taken since. -/
def Uninterrupted (f : UInt64 → Inventory → α × Inventory) (w₀ : World) :
    Stage α → World → Prop
  | .before, w => w.clock = w₀.clock ∧ w.inventory = w₀.inventory
  | .timed now, w => now = w₀.clock ∧ w.inventory = w₀.inventory
  | .decided a, w =>
    a = (f w₀.clock w₀.inventory).1 ∧ w.inventory = (f w₀.clock w₀.inventory).2

section

variable {f : UInt64 → Inventory → α × Inventory} {x : Work α} {w₀ : World}

theorem Uninterrupted.enters {g g' : Stage α} {w w' : World} (hstep : Enters f g w w' g')
    (h : Uninterrupted f w₀ g w) : Uninterrupted f w₀ g' w' := by
  cases hstep with
  | time hinventory => exact ⟨h.1, hinventory.trans h.2⟩
  | decide hinventory =>
    obtain ⟨rfl, hmet⟩ := h
    rw [hmet] at hinventory ⊢
    exact ⟨rfl, hinventory⟩
  | atOnce hinventory =>
    obtain ⟨hclock, hmet⟩ := h
    rw [hclock, hmet] at hinventory ⊢
    exact ⟨rfl, hinventory⟩
  | rest hinventory => exact ⟨h.1, hinventory.trans h.2⟩

theorem Atomic.run (h : Atomic f x) (w : World) :
    (x.run w).1 = (f w.clock w.inventory).1 ∧
      (x.run w).2.inventory = (f w.clock w.inventory).2 := by
  obtain ⟨g, hends, hafter⟩ := Follows.run (P := Uninterrupted f w)
    (fun _ _ _ _ hstep hw => hw.enters hstep) h ⟨rfl, rfl⟩
  cases g with
  | before =>
    -- Nothing was decided, so `f` has the same answer everywhere.
    have hf := hends w.clock w.inventory
    rw [hf]
    exact ⟨rfl, hafter.2⟩
  | timed now => exact hends.elim
  | decided a => exact ⟨hends.symm.trans hafter.1, hafter.2⟩

end

/-! ## Deciding in one step -/

/-- What an activity does at once that makes a change and replies to its value. -/
def replying {β : Type} (reply : β → α) (change : UInt64 → Inventory → β × Inventory) :
    UInt64 → Inventory → α × Inventory :=
  fun now inv => (reply (change now inv).1, (change now inv).2)

/-- From the stage `g` on the activity comes to the decision that its value tells. -/
def Decides {β : Type} (f : UInt64 → Inventory → α × Inventory) (reply : β → α) (g : Stage α)
    (x : Work β) : Prop :=
  Follows (Enters f) (fun b g' => g' = .decided (reply b)) g x

section

variable {β γ : Type} {f : UInt64 → Inventory → α × Inventory} {reply : β → α}

theorem decides_look (reply : β → α) (view : Inventory → β) :
    Decides (replying reply fun _ inv => (view inv, inv)) reply .before (look view) :=
  fun _ => ⟨_, .atOnce rfl, rfl⟩

theorem decides_onInventory (reply : β → α) (change : UInt64 → Inventory → β × Inventory) :
    Decides (replying reply change) reply .before
      (do let now ← readClock; onInventory (change now)) :=
  fun _ => ⟨_, .time rfl, fun _ => ⟨_, .decide rfl, rfl⟩⟩

theorem decides_tryInventory (reply : Except RegistryError β → α)
    (change : UInt64 → Inventory → Except RegistryError (β × Inventory)) :
    ∃ f, Decides f reply .before (do let now ← readClock; tryInventory (change now)) :=
  ⟨_, decides_onInventory reply _⟩

theorem decides_pure (b : β) : Decides f reply (.decided (reply b)) (pure b) := follows_pure rfl

theorem decides_bind {g : Stage α} {reply' : γ → α} {x : Work β} {y : β → Work γ}
    (hx : Decides f reply g x) (hy : ∀ b, Decides f reply' (.decided (reply b)) (y b)) :
    Decides f reply' g (x >>= y) := by
  refine follows_bind hx fun b g' hg => ?_
  subst hg
  exact hy b

/-- Once the answer is decided, other things may be done outside of the inventory. -/
theorem decides_after (policy : Policy) {a : α} {x : Work γ} {y : γ → Work β}
    (hx : Steps policy (fun _ => False) x) (hy : ∀ c, Decides f reply (.decided a) (y c)) :
    Decides f reply (.decided a) (x >>= y) := by
  refine follows_bind (follows_of_steps (fun _ _ hsame => .rest hsame) hx) fun c g hg => ?_
  subst hg
  exact hy c

theorem atomic_of_decides {x : Work β} (h : Decides f reply .before x) :
    Atomic f (do let b ← x; pure (reply b)) := by
  refine follows_bind h fun b g hg => ?_
  subst hg
  exact follows_pure rfl

theorem atomic_pure (a : α) : Atomic (fun _ inv => (a, inv)) (pure a : Work α) :=
  fun _ _ => rfl

end

end ServiceRegistry.World
