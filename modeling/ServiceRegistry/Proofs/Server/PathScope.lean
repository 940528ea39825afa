/-
  ServiceRegistry.Proofs.Server.PathScope

  Finding instances by deploy path, in terms of the requests that registered them. Whatever
  the order in which the steps of requests and passes are taken, an instance is found by the
  deploy path that the ledger of creations gives it. This need not be the one of its own
  request: a service without a deploy path takes in everything of its name, and is taken in
  by the first service of its name.
-/
import ServiceRegistry.Proofs.Inventory.Provenance
import ServiceRegistry.Proofs.Inventory.Visibility
import ServiceRegistry.Proofs.Resolution
import ServiceRegistry.Proofs.Server.Jobs

namespace ServiceRegistry.Server

open Inventory (Event Ledger Moment Recorded)
open Message World

/-! ## The ledger of a schedule -/

section

variable (cfg : Settings)

/-- The number of the instance that a move creates, and the service in the request that the
    move is a step of. -/
def creation? (t : Turn Job) : Option (InstanceId × Service) :=
  match t.job? with
  | some (.register _ r) =>
    ((t.after (Job.work cfg)).world.inventory.ids.find?
      (!t.met.world.inventory.ids.contains ·)).map (·, r.service)
  | _ => none

/-- The creations of a schedule, in order. -/
def ledger (r : Running Job) (moves : List (Move Job)) : Ledger :=
  (r.turns (Job.work cfg) moves).filterMap (creation? cfg)

end

section

variable {cfg : Settings} {t : Turn Job}

theorem creation?_eq_none
    (h : (t.after (Job.work cfg)).world.inventory.ids ⊆ t.met.world.inventory.ids) :
    creation? cfg t = none := by
  have hnone : (t.after (Job.work cfg)).world.inventory.ids.find?
      (!t.met.world.inventory.ids.contains ·) = none := by
    refine List.find?_eq_none.2 fun id hid => ?_
    simpa using h hid
  unfold creation?
  split
  · rw [hnone, Option.map_none]
  · rfl

/-- The number that is new after a step of a request to register is the one recorded. -/
theorem creation?_eq_some {peer : Option Net.Ip} {r : RegisterRequest} {id : InstanceId}
    (hjob : t.job? = some (.register peer r)) (hfresh : id ∉ t.met.world.inventory.ids)
    (hperm : (t.after (Job.work cfg)).world.inventory.ids.Perm
      (id :: t.met.world.inventory.ids)) :
    creation? cfg t = some (id, r.service) := by
  have hsome : ((t.after (Job.work cfg)).world.inventory.ids.find?
      (!t.met.world.inventory.ids.contains ·)).isSome = true := by
    refine List.find?_isSome.2 ⟨id, hperm.mem_iff.2 List.mem_cons_self, ?_⟩
    simpa using hfresh
  obtain ⟨new, hnew⟩ := Option.isSome_iff_exists.1 hsome
  -- No other number is there after the step and was not before it.
  have hnewid : new = id := by
    have hother : new ∉ t.met.world.inventory.ids := by simpa using List.find?_some hnew
    rcases List.mem_cons.1 (hperm.mem_iff.1 (List.mem_of_find?_eq_some hnew)) with heq | hmem
    · exact heq
    · exact absurd hmem hother
  simp only [creation?, hjob, hnew, Option.map_some, hnewid]

end

/-! ## Schedules keep their ledger -/

section

variable {cfg : Settings} {t : Turn Job} {made : Ledger}

/-- A move keeps the ledger true if what it creates is recorded. -/
theorem recorded_turn (h : Recorded made t.met.world.inventory)
    (hobedient : t.met.Obedient cfg.policy Job.Fits)
    (hroom : (made ++ (creation? cfg t).toList).length < UInt64.size) :
    Recorded (made ++ (creation? cfg t).toList) (t.after (Job.work cfg)).world.inventory := by
  rcases Turn.inventory_cases (Job.work cfg) hobedient with
    hsame | ⟨job, e, hjob, hfits, hafter⟩
  · -- The inventory is as before, so nothing is recorded.
    rw [creation?_eq_none (by rw [hsame]; exact List.Subset.refl _), Option.toList_none,
      List.append_nil, hsame]
    exact h
  · cases hc : (Moment.mk e t.met.world.inventory).creates cfg.policy with
    | false =>
      -- Other events bring no new number, so nothing is recorded either.
      have hsubset : (t.after (Job.work cfg)).world.inventory.ids
          ⊆ t.met.world.inventory.ids := by
        rw [hafter]
        exact Moment.ids_after_subset h.wellFormed.ids_nodup hc
      rw [creation?_eq_none hsubset, Option.toList_none, List.append_nil, hafter]
      exact h.of_not_creates hc
    | true =>
      -- Only a request to register performs registrations, and they are of its own service.
      obtain ⟨service, _, _, i, hcreation⟩ := Moment.creation_of_creates hc
      obtain ⟨peer, r, rfl, rfl⟩ := hfits.register_of_enrol hcreation.action_eq
      have hfresh : i.id ∉ t.met.world.inventory.ids := by
        rw [hcreation.id_eq]
        exact h.wellFormed.next_not_mem_ids
      have hperm := hcreation.ids_perm
      rw [← hafter] at hperm
      rw [creation?_eq_some hjob hfresh hperm, Option.toList_some] at hroom ⊢
      rw [List.length_append, List.length_singleton] at hroom
      rw [hafter]
      exact h.of_creates hcreation hroom

/-- No move leaves a hidden instance behind. -/
theorem allVisible_turn (h : t.met.world.inventory.AllVisible)
    (hn : t.met.world.inventory.ids.Nodup) (hobedient : t.met.Obedient cfg.policy Job.Fits) :
    (t.after (Job.work cfg)).world.inventory.AllVisible := by
  rcases Turn.inventory_cases (Job.work cfg) hobedient with
    hsame | ⟨job, e, -, hfits, hafter⟩
  · rw [hsame]
    exact h
  · rw [hafter]
    exact Inventory.AllVisible.after h hn hfits.ne_retire

theorem recorded_after {r : Running Job} {moves : List (Move Job)}
    (h : Recorded made r.world.inventory) (hvisible : r.world.inventory.AllVisible)
    (hobedient : r.Obedient cfg.policy Job.Fits)
    (hroom : (made ++ ledger cfg r moves).length < UInt64.size) :
    Recorded (made ++ ledger cfg r moves) (r.after (Job.work cfg) moves).world.inventory ∧
      (r.after (Job.work cfg) moves).world.inventory.AllVisible := by
  -- The ledger grows at its end while the schedule is taken apart from the front; both
  -- invariants and the obedience of the jobs go along.
  induction moves generalizing r made with
  | nil =>
    rw [ledger, Running.turns, List.filterMap_nil, List.append_nil]
    exact ⟨h, hvisible⟩
  | cons move moves ih =>
    have hledger : made ++ ledger cfg r (move :: moves)
        = (made ++ (creation? cfg ⟨r, move⟩).toList)
          ++ ledger cfg ((Turn.mk r move).after (Job.work cfg)) moves := by
      simp only [ledger, Running.turns, List.filterMap_cons, List.append_assoc]
      cases creation? cfg ⟨r, move⟩ <;> rfl
    rw [hledger] at hroom ⊢
    have hmet : Recorded made (Turn.mk r move).met.world.inventory := h
    have hroom' : (made ++ (creation? cfg ⟨r, move⟩).toList).length < UInt64.size := by
      rw [List.length_append] at hroom
      omega
    exact ih (recorded_turn hmet hobedient hroom')
      (allVisible_turn hvisible h.wellFormed.ids_nodup hobedient)
      (Running.Obedient.after (Job.work cfg) (steps_work cfg) hobedient) hroom

end

/-! ## Targets by deploy path -/

/-- After every schedule of requests and passes, a stored instance was created by exactly one
    of the requests, and a query by deploy path finds it exactly if it has the capability and
    the queried path means the one that it has in effect. That is none if the first request
    that created an instance under its name announced none, and otherwise the one announced
    for the instance or, if there was none, the one of that first request. -/
theorem mem_targets_iff_effectivePath (cfg : Settings) (w : World) (hw : w.inventory = .empty)
    (moves : List (Move Job))
    (hroom : (ledger cfg { world := w } moves).length < UInt64.size) :
    let made := ledger cfg { world := w } moves
    let inv := (Running.after (Job.work cfg) { world := w } moves).world.inventory
    ∀ s i, (s, i) ∈ inv.stored → ∃ announced, (i.id, announced) ∈ made ∧
      (∀ other, (i.id, other) ∈ made → other = announced) ∧
      ∀ c p, p ≠ "" → ((s, i) ∈ inv.targets (.ofTexts c p "") ↔ c ∈ i.capabilities ∧
        ∃ d, made.effectivePath announced = some d ∧ pathAnswers d p = true) := by
  intro made inv s i hi
  have hempty : Recorded [] w.inventory := by
    rw [hw]
    exact Inventory.recorded_empty
  have hvisible : w.inventory.AllVisible := by
    rw [hw]
    exact List.forall_mem_nil _
  obtain ⟨hrecorded, hshown⟩ :=
    recorded_after (r := { world := w }) hempty hvisible (List.forall_mem_nil _) hroom
  rw [List.nil_append] at hrecorded
  obtain ⟨announced, hmade, hpath⟩ := hrecorded.placed s i hi
  refine ⟨announced, hmade, fun other hother => hrecorded.unique hother hmade, ?_⟩
  intro c p hp
  -- Nothing stored is hidden, so only the deploy path and the capability decide.
  have hseen : i.isVisible = true := hshown i (Inventory.mem_instances.2 ⟨s, hi⟩)
  rw [mem_targets, admits_ofTexts_path hp, hpath]
  constructor
  · rintro ⟨-, hmeant, -, hoffers⟩
    exact ⟨List.contains_iff_mem.1 hoffers, hmeant⟩
  · rintro ⟨hoffers, hmeant⟩
    exact ⟨hi, hmeant, hseen, List.contains_iff_mem.2 hoffers⟩

/-- Two requests and a pass whose steps alternate while the clock is set back. -/
theorem mem_targets_iff_effectivePath_interleaved :
    let register (service : Service) (host : String) : Job :=
      .register none ⟨service, [⟨host, 9000, [.tcp]⟩]⟩
    let moves : List (Move Job) :=
      [.start (register ⟨"kv", some "ns/g/kv/7"⟩ "node-1"), .start (register ⟨"kv", none⟩ "node-2"),
        .start .pass, .proceed 2, .proceed 1, .proceed 0, .proceed 0, .drift 900 0 {}, .proceed 1,
        .proceed 2, .proceed 2]
    let w : World := { clock := 1000, unixTime := 0 }
    let made := ledger {} { world := w } moves
    let inv := (Running.after (Job.work {}) { world := w } moves).world.inventory
    let i : Instance := .enrolled 2 ⟨"node-2", 9000⟩ [.tcp] 1000
    w.inventory = .empty ∧ made.length < UInt64.size ∧
      (⟨"kv", some "ns/g/kv/7"⟩, i) ∈ inv.stored ∧
      ∃ announced, (i.id, announced) ∈ made ∧ ∀ c p, p ≠ "" →
        ((⟨"kv", some "ns/g/kv/7"⟩, i) ∈ inv.targets (.ofTexts c p "") ↔ c ∈ i.capabilities ∧
          ∃ d, made.effectivePath announced = some d ∧ pathAnswers d p = true) := by
  intro register moves w made inv i
  have hroom : made.length < UInt64.size := by decide +kernel
  have hstored : (⟨"kv", some "ns/g/kv/7"⟩, i) ∈ inv.stored := by decide +kernel
  obtain ⟨announced, hmade, -, hfound⟩ :=
    mem_targets_iff_effectivePath {} w rfl moves hroom _ i hstored
  exact ⟨rfl, hroom, hstored, announced, hmade, hfound⟩

/-- A request without a deploy path after one with it, each carried out without interruption:
    the instance of the second is found by the path of the first. -/
theorem path_of_own_request_not_decisive :
    let register (service : Service) (host : String) : Job :=
      .register none ⟨service, [⟨host, 9000, [.tcp]⟩]⟩
    let moves : List (Move Job) :=
      .start (register ⟨"kv", some "ns/g/kv/7"⟩ "node-1") :: List.replicate 6 (.proceed 0)
        ++ .start (register ⟨"kv", none⟩ "node-2") :: List.replicate 6 (.proceed 1)
    let start : Running Job := { world := { clock := 1000, unixTime := 0 } }
    let made := ledger {} start moves
    let inv := (start.after (Job.work {}) moves).world.inventory
    ¬ ∀ s i, (s, i) ∈ inv.stored → ∀ announced, (i.id, announced) ∈ made →
      ∀ c p, p ≠ "" → ((s, i) ∈ inv.targets (.ofTexts c p "") ↔ c ∈ i.capabilities ∧
        ∃ d, announced.path? = some d ∧ pathAnswers d p = true) := by
  intro register moves start made inv hfaithful
  let i : Instance := .enrolled 2 ⟨"node-2", 9000⟩ [.tcp] 1000
  have hstored : (⟨"kv", some "ns/g/kv/7"⟩, i) ∈ inv.stored := by decide +kernel
  have hmade : (i.id, ⟨"kv", none⟩) ∈ made := by decide +kernel
  have hfound : (⟨"kv", some "ns/g/kv/7"⟩, i) ∈ inv.targets (.ofTexts .tcp "ns/g/kv" "") := by
    decide +kernel
  obtain ⟨-, d, hd, -⟩ := (hfaithful _ i hstored _ hmade .tcp "ns/g/kv" (by decide)).1 hfound
  cases hd

end ServiceRegistry.Server
