/-
  ServiceRegistry.Proofs.World.Interlude

  One activity while others are at work. Before each of its steps there is an interlude, in
  which the others perform any events on the inventory and change the rest of the world as
  they like. A stream of interludes is thus every way in which the others can come in
  between, and the activity's own steps are seen one by one.

  What the activity does is told as a list of marks: `Enacts` says that each of its steps
  leaves the inventory alone or does what the next mark says, in the world in which the step
  is taken. `Follows.enacts` gets the list from a ghost that collects the marks.
-/
import ServiceRegistry.Proofs.Inventory.WellFormed
import ServiceRegistry.Proofs.World.Ghost

namespace ServiceRegistry.World

open Inventory (Event Moment)

/-! ## Interludes -/

/-- What others do between two steps of an activity. -/
structure Interlude where
  events : List Event := []
  surroundings : World → World := id

/-- The world after an interlude. -/
def Interlude.after (policy : Policy) (d : Interlude) (w : World) : World :=
  { d.surroundings w with inventory := Inventory.after policy w.inventory d.events }

/-- The number of instances that the others create while an activity runs. The `n`th
    interlude comes before the `n`th step. -/
def creationsAmid {α : Type} (policy : Policy) : Work α → (Nat → Interlude) → World → Nat
  | .done _, _, _ => 0
  | .step act next, others, w =>
    Inventory.creations policy w.inventory (others 0).events
      + creationsAmid policy (next ((others 0).after policy w)) (fun n => others (n + 1))
          (act ((others 0).after policy w))

/-! ## Marks -/

/-- The steps of the activity, each taken after an interlude, do what the marks say, one
    after the other, and nothing else to the inventory. -/
inductive Enacts {α μ : Type} (policy : Policy) (does : μ → World → World → Prop) :
    Work α → (Nat → Interlude) → World → List μ → Prop
  | done (a : α) (others : Nat → Interlude) (w : World) :
    Enacts policy does (.done a) others w []
  | idle (act : World → World) (next : World → Work α) (others : Nat → Interlude) (w : World)
    (ms : List μ)
    (hsame : (act ((others 0).after policy w)).inventory
      = ((others 0).after policy w).inventory)
    (hrest : Enacts policy does (next ((others 0).after policy w)) (fun n => others (n + 1))
      (act ((others 0).after policy w)) ms) :
    Enacts policy does (.step act next) others w ms
  | mark (act : World → World) (next : World → Work α) (others : Nat → Interlude) (w : World)
    (m : μ) (ms : List μ)
    (hdoes : does m ((others 0).after policy w) (act ((others 0).after policy w)))
    (hrest : Enacts policy does (next ((others 0).after policy w)) (fun n => others (n + 1))
      (act ((others 0).after policy w)) ms) :
    Enacts policy does (.step act next) others w (m :: ms)

/-- A step leaves the inventory and the marks collected so far alone, or it does what a mark
    says and adds the mark. -/
def Collects {μ : Type} (does : μ → World → World → Prop) (ms : List μ) (w w' : World)
    (ms' : List μ) : Prop :=
  (ms' = ms ∧ w'.inventory = w.inventory) ∨ ∃ m, ms' = ms ++ [m] ∧ does m w w'

section

variable {α μ : Type} {policy : Policy} {does : μ → World → World → Prop}
variable {post : α → List μ → Prop} {ms : List μ}

theorem Follows.enacts {x : Work α} (h : Follows (Collects does) post ms x)
    (others : Nat → Interlude) (w : World) :
    ∃ a more, post a (ms ++ more) ∧ Enacts policy does x others w more := by
  -- Along the steps of `x`; `ms` are the marks of the steps already taken.
  induction x generalizing ms others w with
  | done a => exact ⟨a, [], by rwa [List.append_nil], .done a others w⟩
  | step act next ih =>
    obtain ⟨ms', hrule, hnext⟩ := h ((others 0).after policy w)
    obtain ⟨a, more, hpost, hrest⟩ :=
      ih _ hnext (fun n => others (n + 1)) (act ((others 0).after policy w))
    rcases hrule with ⟨rfl, hsame⟩ | ⟨m, rfl, hdoes⟩
    · exact ⟨a, more, hpost, .idle act next others w more hsame hrest⟩
    · rw [List.append_assoc] at hpost
      exact ⟨a, m :: more, hpost, .mark act next others w m more hdoes hrest⟩

/-- An activity that never changes the inventory adds no mark. -/
theorem collects_of_steps (policy : Policy) {x : Work α} (h : Steps policy (fun _ => False) x) :
    Follows (Collects does) (fun _ ms' => ms' = ms) ms x :=
  follows_of_steps (fun _ _ hsame => .inl ⟨rfl, hsame⟩) h

end

/-! ## Numbers left for all -/

/-- An event that registers nothing new, whatever it meets. -/
def CreatesNothing (policy : Policy) (e : Event) : Prop :=
  ∀ inv, (Moment.mk e inv).creates policy = false

theorem CreatesNothing.sound {policy : Policy} {e : Event} (h : CreatesNothing policy e)
    {inv : Inventory} (hw : inv.WellFormed) : (Moment.mk e inv).Sound policy where
  wellFormed := hw
  room := by
    intro hc
    rw [h inv] at hc
    cases hc

/-- The inventory is well-formed, and the others do not use up its numbers while the activity
    runs. -/
structure Spacious {α : Type} (policy : Policy) (x : Work α) (others : Nat → Interlude)
    (w : World) : Prop where
  wellFormed : w.inventory.WellFormed
  room : w.inventory.lastId.toNat + creationsAmid policy x others w < UInt64.size

section

variable {α : Type} {policy : Policy} {act : World → World} {next : World → Work α}
variable {others : Nat → Interlude} {w : World}

theorem Spacious.ready (h : Spacious policy (.step act next) others w) :
    Inventory.Ready policy w.inventory (others 0).events where
  wellFormed := h.wellFormed
  room := by
    have hroom := h.room
    rw [creationsAmid] at hroom
    omega

/-- What is left of an activity is spacious after a step that registers nothing. -/
theorem Spacious.rest (h : Spacious policy (.step act next) others w)
    (hchanges : Changes policy (CreatesNothing policy) ((others 0).after policy w).inventory
      (act ((others 0).after policy w)).inventory) :
    Spacious policy (next ((others 0).after policy w)) (fun n => others (n + 1))
      (act ((others 0).after policy w)) := by
  have hmet : ((others 0).after policy w).inventory.WellFormed := h.ready.wellFormed_after
  -- The interlude has taken one number for each instance that it created.
  have hafter : ((others 0).after policy w).inventory.lastId.toNat = _ :=
    h.ready.toNat_lastId_after
  have hroom := h.room
  rw [creationsAmid] at hroom
  rcases hchanges with hsame | ⟨e, he, heq⟩
  · refine ⟨by rwa [hsame], ?_⟩
    rw [hsame, hafter]
    omega
  · refine ⟨by rw [heq]; exact (he.sound hmet).wellFormed_after, ?_⟩
    rw [heq, Inventory.lastId_after_of_not_creates hmet (he _), hafter]
    omega

end

end ServiceRegistry.World
