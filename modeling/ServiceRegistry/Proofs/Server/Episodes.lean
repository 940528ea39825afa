/-
  ServiceRegistry.Proofs.Server.Episodes

  The inventories that a registry comes to have while it works on requests, as they arrive from
  outside, and on passes. Any number of them may be at work at once, and their steps may
  alternate in any way. Whatever a request is, its steps perform events that hide nothing
  without sweeping; so what holds after every such run of events holds after every schedule,
  as long as there are numbers for the instances that it creates (`attained_after`).
-/
import ServiceRegistry.Proofs.Inventory.Visibility
import ServiceRegistry.Proofs.Inventory.WellFormed
import ServiceRegistry.Proofs.Server.InStep
import ServiceRegistry.Proofs.Server.Jobs

namespace ServiceRegistry.Server

open Inventory (Event Moment)
open Message Net World

/-! ## The steps of requests -/

/-- The event hides nothing that it does not sweep away. -/
def LeavesNoneHidden (e : Event) : Prop := ∀ id, e.action ≠ .retire id

/-- The event is of a kind that requests perform: something is registered or withdrawn. -/
def Requested (e : Event) : Prop :=
  match e.action with
  | .enrol .. | .withdraw _ | .withdrawPorts .. => True
  | _ => False

theorem Requested.leavesNoneHidden {e : Event} (h : Requested e) : LeavesNoneHidden e := by
  intro id haction
  simp only [Requested, haction] at h

theorem Requested.ne_noteProbe {e : Event} (h : Requested e) (id : InstanceId) (success : Bool) :
    e.action ≠ .noteProbe id success := by
  intro haction
  simp only [Requested, haction] at h

/-- The activity of an episode. -/
def Episode.work (cfg : Settings) : Episode → Work Unit
  | request peer r => silently (respond cfg peer r)
  | pass => silently (Supervision.pass cfg)

section

variable {cfg : Settings} {P : Event → Prop}

theorem steps_serve {α β : Type} {policy : Policy} {decode : Json.Decoder α} {encode : β → Json}
    {handler : α → Work (Except RegistryError β)} (h : ∀ a, Steps policy P (handler a))
    (r : Request) : Steps policy P (serve decode encode handler r) := by
  unfold serve
  split
  · exact steps_pure _
  · exact steps_bind (h _) fun _ => steps_pure _

theorem steps_operate (peer : Option Ip) (r : Request) (op : Operation) :
    Steps cfg.policy Requested (operate cfg peer r op) := by
  cases op with
  | register => exact steps_serve (fun _ => steps_register peer fun _ _ _ => trivial) r
  | deregister => exact steps_serve (fun _ => steps_deregister fun _ => trivial) r
  | list => exact steps_serve steps_list r
  | target => exact steps_serve steps_target r
  | lookup => exact steps_serve steps_lookup r
  | shutdown => exact steps_serve steps_shutdown r
  | processShutdown =>
    exact steps_serve (fun _ => steps_processShutdown peer fun _ _ => trivial) r

theorem steps_dispatch (peer : Option Ip) (r : Request) :
    Steps cfg.policy Requested (dispatch cfg peer r) := by
  unfold dispatch
  split
  · exact steps_pure _
  · split
    · split
      · exact steps_pure _
      · exact steps_operate peer r _
    · exact steps_pure _

theorem steps_respond (peer : Option Ip) (r : Request) :
    Steps cfg.policy Requested (respond cfg peer r) := by
  refine steps_bind ?_ fun _ => steps_pure _
  unfold guarded
  split
  · refine steps_bind (steps_observe _) fun now => ?_
    split
    · exact steps_pure _
    · exact steps_dispatch _ r
  · exact steps_dispatch _ r

theorem steps_episode (cfg : Settings) (episode : Episode) :
    Steps cfg.policy LeavesNoneHidden (episode.work cfg) := by
  cases episode with
  | request peer r =>
    exact steps_silently ((steps_respond peer r).mono fun _ => Requested.leavesNoneHidden)
  | pass => exact steps_silently (steps_pass (fun _ _ => nofun) fun _ _ _ _ => nofun)

end

/-! ## Inventories after schedules -/

/-- The number of moves that create an instance. -/
def creations {J : Type} (work : J → Work Unit) (r : Running J) (moves : List (Move J)) : Nat :=
  (r.turns work moves).countP fun t =>
    t.met.world.inventory.size < (t.after work).world.inventory.size

theorem creations_cons {J : Type} (work : J → Work Unit) (r : Running J) (move : Move J)
    (moves : List (Move J)) :
    creations work r (move :: moves) =
      (if r.world.inventory.size < ((Turn.mk r move).after work).world.inventory.size
        then 1 else 0) + creations work ((Turn.mk r move).after work) moves := by
  simp only [creations, Running.turns, List.countP_cons, decide_eq_true_eq]
  exact Nat.add_comm _ _

/-- What holds of an inventory after so many creations. -/
structure Attained (made : Nat) (inv : Inventory) : Prop where
  wellFormed : inv.WellFormed
  allVisible : inv.AllVisible
  lastId_eq : inv.lastId.toNat = made

section

variable {J : Type} {work : J → Work Unit} {policy : Policy} {made : Nat}

theorem Attained.event {m : Moment} (h : Attained made m.met) (hshown : LeavesNoneHidden m.toEvent)
    (hroom : made + (if m.met.size < (m.after policy).size then 1 else 0) < UInt64.size) :
    Attained (made + if m.met.size < (m.after policy).size then 1 else 0) (m.after policy) := by
  have hn := h.wellFormed.ids_nodup
  -- An event creates an instance exactly if there are more instances after it.
  have hgrows : m.met.size < (m.after policy).size ↔ m.creates policy = true := by
    cases hc : m.creates policy with
    | true => simp only [Moment.size_after_of_creates hc, Nat.lt_add_one]
    | false => simpa using Moment.size_after_le hn hc
  simp only [hgrows] at hroom ⊢
  have hsound : m.Sound policy :=
    ⟨h.wellFormed, fun hc => by rwa [if_pos hc, ← h.lastId_eq] at hroom⟩
  refine ⟨hsound.wellFormed_after, h.allVisible.after hn hshown, ?_⟩
  cases hc : m.creates policy with
  | true =>
    rw [hsound.toNat_lastId_of_creates hc, h.lastId_eq]
    rfl
  | false =>
    rw [Inventory.lastId_after_of_not_creates h.wellFormed hc, h.lastId_eq]
    rfl

/-- A move performs at most one event, and the event is one that leaves nothing hidden. -/
theorem attained_turn {t : Turn J} (h : Attained made t.met.world.inventory)
    (hobedient : t.met.Obedient policy fun _ => LeavesNoneHidden)
    (hroom : made + (if t.met.world.inventory.size < (t.after work).world.inventory.size
      then 1 else 0) < UInt64.size) :
    Attained (made + if t.met.world.inventory.size < (t.after work).world.inventory.size
      then 1 else 0) (t.after work).world.inventory := by
  rcases Turn.inventory_cases work hobedient with hsame | ⟨job, e, -, hshown, hafter⟩
  · rw [hsame, if_neg (Nat.lt_irrefl _)]
    exact h
  · rw [hafter] at hroom ⊢
    exact Attained.event (m := ⟨e, t.met.world.inventory⟩) h hshown hroom

theorem attained_after (hwork : ∀ job, Steps policy LeavesNoneHidden (work job)) {r : Running J}
    (moves : List (Move J)) (h : Attained made r.world.inventory)
    (hobedient : r.Obedient policy fun _ => LeavesNoneHidden)
    (hroom : made + creations work r moves < UInt64.size) :
    Attained (made + creations work r moves) (r.after work moves).world.inventory := by
  -- Along the schedule; what has been created so far is counted in `made`.
  induction moves generalizing r made with
  | nil => exact h
  | cons move moves ih =>
    rw [creations_cons, ← Nat.add_assoc] at hroom ⊢
    have hnow := Nat.lt_of_le_of_lt (Nat.le_add_right _ _) hroom
    exact ih (attained_turn (t := ⟨r, move⟩) h hobedient hnow)
      (Running.Obedient.after work hwork hobedient) hroom

/-- An inventory that was empty at first, after a schedule of requests and passes. -/
theorem attained_episodes {cfg : Settings} {w : World} (hw : w.inventory = .empty)
    {moves : List (Move Episode)}
    (hroom : creations (Episode.work cfg) { world := w } moves < UInt64.size) :
    Attained (creations (Episode.work cfg) { world := w } moves)
      (Running.after (Episode.work cfg) { world := w } moves).world.inventory := by
  have hempty : Attained 0 w.inventory := by
    rw [hw]
    exact ⟨Inventory.wellFormed_empty, List.forall_mem_nil _, rfl⟩
  have hafter := attained_after (steps_episode cfg) (r := { world := w }) moves hempty
    (List.forall_mem_nil _) (by rwa [Nat.zero_add])
  rwa [Nat.zero_add] at hafter

end

end ServiceRegistry.Server
