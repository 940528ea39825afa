/-
  ServiceRegistry.Proofs.Supervision.Streak

  A dead instance is evicted after a fixed number of passes, and never earlier. The passes of
  a supervisor follow one another while requests come between any two of their steps. The
  count of failures of an instance is then the number of its failed probes in a row, of those
  whose outcomes have been noted; what has been probed and not noted yet waits in the pass
  (`Tallied`).

  No instance has more failures than the policy allows, except while outcomes are noted, and
  then only if its own has been noted already; the sweep at the end of the pass removes it.
-/
import ServiceRegistry.Client.Registry
import ServiceRegistry.Proofs.Inventory.History
import ServiceRegistry.Proofs.Inventory.Probing
import ServiceRegistry.Proofs.Server.Episodes
import ServiceRegistry.Proofs.Supervision.Rounds

namespace ServiceRegistry.Supervision

open Inventory (Event Moment)
open Message Net World

/-! ## Failures in a row -/

/-- The number of failed probes of an instance since its last success, or of all its probes if
    none of them succeeded. A probe that is given up has failed. -/
def streak (id : InstanceId) (probes : List (Candidate × Reaction)) : Nat :=
  probes.foldl
    (fun n p => if p.1.id = id then if p.2 = .succeeds then 0 else n + 1 else n) 0

section

variable {id : InstanceId} {probes more : List (Candidate × Reaction)}

theorem streak_append_singleton (probes : List (Candidate × Reaction)) (c : Candidate)
    (r : Reaction) : streak id (probes ++ [(c, r)]) =
      if c.id = id then if r = .succeeds then 0 else streak id probes + 1 else streak id probes :=
  List.foldl_append

theorem streak_append_of_not_mem (h : ∀ p ∈ more, p.1.id ≠ id) :
    streak id (probes ++ more) = streak id probes := by
  induction more generalizing probes with
  | nil => rw [List.append_nil]
  | cons p more ih =>
    obtain ⟨hp, hmore⟩ := List.forall_mem_cons.1 h
    obtain ⟨c, r⟩ := p
    rw [List.append_cons, ih hmore, streak_append_singleton, if_neg hp]

theorem streak_eq_zero (h : ∀ p ∈ probes, p.1.id ≠ id) : streak id probes = 0 := by
  rw [← List.nil_append probes, streak_append_of_not_mem h]
  rfl

end

/-- The count of failures is that of the probes given, up to its limit. -/
def Counts (i : Instance) (probes : List (Candidate × Reaction)) : Prop :=
  i.failures = UInt32.ofNat (min (UInt32.size - 1) (streak i.id probes))

theorem Counts.toNat {i : Instance} {probes : List (Candidate × Reaction)}
    (h : Counts i probes) :
    i.failures.toNat = min (UInt32.size - 1) (streak i.id probes) := by
  have hsize : UInt32.size = 4294967296 := rfl
  rw [h]
  exact UInt32.toNat_ofNat_of_lt' (by omega)

theorem Counts.noted {i : Instance} {c : Candidate} {r : Reaction}
    {probes : List (Candidate × Reaction)} (h : Counts i probes) (now : UInt64) :
    Counts (Inventory.onlyAt c.id (·.probed (r == .succeeds) now) i) (probes ++ [(c, r)]) := by
  unfold Counts at h ⊢
  rw [(Inventory.sameRegistration_onlyAt (fun j => Inventory.sameRegistration_probed j _ now)
    c.id i).id_eq, streak_append_singleton, Inventory.onlyAt]
  by_cases hid : i.id = c.id
  · rw [if_pos hid, if_pos hid.symm]
    by_cases hr : r = .succeeds
    · subst hr
      rfl
    · rw [if_neg hr, beq_false_of_ne hr]
      exact Inventory.failed_failures h
  · rw [if_neg hid, if_neg (Ne.symm hid)]
    exact h

/-! ## What holds between two steps -/

namespace Progress

/-- The numbers of what has yet to be probed or noted. -/
def awaited (g : Progress) : List InstanceId :=
  g.pending.map (·.1.id) ++ g.waiting.map (·.id)

/-- Since the last sweep no outcome has been noted of an instance with the number. -/
def Unnoted (id : InstanceId) : Progress → Prop
  | resting => True
  | busy waiting pending => waiting ≠ [] ∨ id ∈ pending.map (·.1.id)

end Progress

/-- The probes made so far, how far the current pass has got, and the inventory. -/
structure Tallied (policy : Policy) (probes : List (Candidate × Reaction)) (g : Progress)
    (inv : Inventory) : Prop where
  /-- Only numbers that were given are probed. -/
  given : ∀ p ∈ probes, p.1.id ≤ inv.lastId
  awaited_given : ∀ id ∈ g.awaited, id ≤ inv.lastId
  /-- A pass probes no number twice. -/
  distinct : g.awaited.Nodup
  /-- The counts are those of the outcomes noted so far. -/
  counted : ∃ noted, probes = noted ++ g.pending ∧ ∀ i ∈ inv.instances, Counts i noted
  /-- No instance has more failures than allowed before its outcome is noted. -/
  bounded : ∀ i ∈ inv.instances, g.Unnoted i.id → i.failures ≤ policy.maxFailures

section

variable {policy : Policy} {probes : List (Candidate × Reaction)} {g g' : Progress}

theorem tallied_empty (policy : Policy) : Tallied policy [] .resting .empty where
  given := List.forall_mem_nil _
  awaited_given := List.forall_mem_nil _
  distinct := List.nodup_nil
  counted := ⟨[], rfl, List.forall_mem_nil _⟩
  bounded := List.forall_mem_nil _

/-- An event that is no outcome leaves the counts alone, and what is new has not been probed. -/
theorem Tallied.event {m : Moment} (h : Tallied policy probes g m.met) (hm : m.Sound policy)
    (hnote : ∀ id success, m.action ≠ .noteProbe id success) :
    Tallied policy probes g (m.after policy) := by
  obtain ⟨noted, hnoted, hcounts⟩ := h.counted
  have hgiven : ∀ p ∈ noted, p.1.id ≤ m.met.lastId := by
    intro p hp
    exact h.given p (hnoted ▸ List.mem_append_left _ hp)
  refine ⟨fun p hp => UInt64.le_trans (h.given p hp) hm.lastId_le,
    fun id hid => UInt64.le_trans (h.awaited_given id hid) hm.lastId_le, h.distinct,
    ⟨noted, hnoted, fun j hj => ?_⟩, fun j hj hunnoted => ?_⟩
  · obtain ⟨s, hj⟩ := Inventory.mem_instances.1 hj
    rcases hm.sameRecord hnote hj with ⟨hlt, hclean⟩ | ⟨i, hi, hsame⟩
    · have hfresh : ∀ p ∈ noted, p.1.id ≠ j.id := by
        intro p hp heq
        have hle := heq ▸ hgiven p hp
        exact UInt64.lt_irrefl _ (UInt64.lt_of_le_of_lt hle hlt)
      rw [Counts, hclean.failures_eq, streak_eq_zero hfresh]
      rfl
    · have hcount := hcounts i (Inventory.mem_instances.2 ⟨s, hi⟩)
      rwa [Counts, hsame.failures_eq, hsame.id_eq]
  · obtain ⟨s, hj⟩ := Inventory.mem_instances.1 hj
    rcases hm.sameRecord hnote hj with ⟨-, hclean⟩ | ⟨i, hi, hsame⟩
    · rw [hclean.failures_eq]
      exact UInt32.zero_le
    · rw [hsame.failures_eq]
      rw [hsame.id_eq] at hunnoted
      exact h.bounded i (Inventory.mem_instances.2 ⟨s, hi⟩) hunnoted

theorem Tallied.read {inv : Inventory} (h : Tallied policy probes .resting inv)
    (hw : inv.WellFormed) : Tallied policy probes (.busy inv.candidates []) inv where
  given := h.given
  awaited_given := fun id hid =>
    (hw.ids_given id ((Inventory.candidates_ids_sublist inv).subset hid)).2
  distinct := hw.ids_nodup.sublist (Inventory.candidates_ids_sublist inv)
  counted := h.counted
  bounded := fun i hi _ => h.bounded i hi trivial

theorem Tallied.probe {inv : Inventory} {c : Candidate} {waiting : List Candidate}
    {pending : List (Candidate × Reaction)}
    (h : Tallied policy probes (.busy (c :: waiting) pending) inv) (r : Reaction) :
    Tallied policy (probes ++ [(c, r)]) (.busy waiting (pending ++ [(c, r)])) inv := by
  -- The number moves from what has to be probed to what has to be noted.
  have hawaited : Progress.awaited (.busy waiting (pending ++ [(c, r)]))
      = Progress.awaited (.busy (c :: waiting) pending) := by
    simp only [Progress.awaited, Progress.pending, Progress.waiting, List.map_append,
      List.map_cons, List.map_nil, List.append_assoc, List.singleton_append]
  obtain ⟨noted, rfl, hcounts⟩ := h.counted
  have hc : c.id ≤ inv.lastId := by
    refine h.awaited_given c.id (List.mem_append_right _ ?_)
    exact List.mem_cons_self
  refine ⟨?_, by rw [hawaited]; exact h.awaited_given, by rw [hawaited]; exact h.distinct,
    ⟨noted, List.append_assoc _ _ _, hcounts⟩, fun i hi _ => h.bounded i hi (.inl nofun)⟩
  intro p hp
  rcases List.mem_append.1 hp with hp | hp
  · exact h.given p hp
  · rw [List.mem_singleton.1 hp]
    exact hc

theorem Tallied.note {inv : Inventory} {c : Candidate} {r : Reaction}
    {pending : List (Candidate × Reaction)}
    (h : Tallied policy probes (.busy [] ((c, r) :: pending)) inv) (hw : inv.WellFormed)
    (now : UInt64) :
    Tallied policy probes (.busy [] pending)
      (inv.noteProbe c.id (r == .succeeds) now).2 := by
  obtain ⟨noted, hnoted, hcounts⟩ := h.counted
  have hdistinct : (c.id :: Progress.awaited (.busy [] pending)).Nodup := h.distinct
  have hlast : (inv.noteProbe c.id (r == .succeeds) now).2.lastId = inv.lastId := by
    by_cases hid : c.id ∈ inv.ids
    · obtain ⟨-, -, -, -, -, heq⟩ := Inventory.noteProbe_replaced hid (r == .succeeds) now
      exact heq
    · rw [Inventory.noteProbe_of_not_mem hid]
  have hstored : ∀ j ∈ (inv.noteProbe c.id (r == .succeeds) now).2.instances,
      ∃ i ∈ inv.instances, Inventory.onlyAt c.id (·.probed (r == .succeeds) now) i = j := by
    intro j hj
    obtain ⟨s, hj⟩ := Inventory.mem_instances.1 hj
    obtain ⟨i, hi, heq⟩ := (Inventory.mem_stored_noteProbe hw.ids_nodup).1 hj
    exact ⟨i, Inventory.mem_instances.2 ⟨s, hi⟩, heq⟩
  refine ⟨by rw [hlast]; exact h.given, fun id hid => ?_, (List.nodup_cons.1 hdistinct).2,
    ⟨noted ++ [(c, r)], by rw [hnoted, List.append_assoc]; rfl, fun j hj => ?_⟩,
    fun j hj hunnoted => ?_⟩
  · rw [hlast]
    exact h.awaited_given id (List.mem_cons_of_mem _ hid)
  · obtain ⟨i, hi, rfl⟩ := hstored j hj
    exact (hcounts i hi).noted now
  · -- What has yet to be noted is another number, so nothing has changed for it.
    obtain ⟨i, hi, rfl⟩ := hstored j hj
    have hmem : i.id ∈ pending.map (·.1.id) := by
      rw [(Inventory.sameRegistration_onlyAt
        (fun k => Inventory.sameRegistration_probed k _ now) c.id i).id_eq] at hunnoted
      exact hunnoted.resolve_left fun hne => hne rfl
    have hne : i.id ≠ c.id := by
      intro heq
      rw [heq] at hmem
      exact (List.nodup_cons.1 hdistinct).1 (List.mem_append_left _ hmem)
    rw [Inventory.onlyAt, if_neg hne]
    exact h.bounded i hi (.inr (List.mem_cons_of_mem _ hmem))

theorem Tallied.sweep {inv : Inventory} (h : Tallied policy probes (.busy [] []) inv)
    (now : UInt64) : Tallied policy probes .resting (inv.sweep policy now).2 := by
  have hstored : ∀ j ∈ (inv.sweep policy now).2.instances,
      j ∈ inv.instances ∧ j.failures ≤ policy.maxFailures := by
    intro j hj
    obtain ⟨s, hj⟩ := Inventory.mem_instances.1 hj
    obtain ⟨hj, hle⟩ := Inventory.mem_stored_sweep hj
    exact ⟨Inventory.mem_instances.2 ⟨s, hj⟩, hle⟩
  obtain ⟨noted, hnoted, hcounts⟩ := h.counted
  exact ⟨h.given, h.awaited_given, h.distinct,
    ⟨noted, hnoted, fun j hj => hcounts j (hstored j hj).1⟩, fun j hj _ => (hstored j hj).2⟩

/-- Every step of a pass keeps the tally, with the probe that it may have made. -/
theorem Tallied.advances {w w' : World} (h : Tallied policy probes g w.inventory)
    (hw : w.inventory.WellFormed) (hstep : Advances policy g w w' g') :
    Tallied policy (probes ++ (probeMade? w w').toList) g' w'.inventory := by
  cases hstep with
  | idle hinventory hfleet =>
    rw [probeMade?_of_same hfleet, Option.toList_none, List.append_nil, hinventory]
    exact h
  | read hinventory hfleet =>
    rw [probeMade?_of_same hfleet, Option.toList_none, List.append_nil, hinventory]
    exact h.read hw
  | probe hinventory hprobe =>
    rw [hprobe, Option.toList_some, hinventory]
    exact h.probe _
  | note now hinventory hfleet =>
    rw [probeMade?_of_same hfleet, Option.toList_none, List.append_nil, hinventory]
    exact h.note hw now
  | sweep now hinventory hfleet =>
    rw [probeMade?_of_same hfleet, Option.toList_none, List.append_nil, hinventory]
    exact h.sweep now

/-- Whoever sweeps, nothing is evicted for its failures before it has failed too often. -/
theorem Tallied.excessive {m : Moment} (h : Tallied policy probes g m.met)
    (hn : m.met.ids.Nodup) {ev : Eviction} (hev : ev ∈ (m.answer policy).evictions)
    (hreason : ev.reason = .excessiveFailures) :
    policy.maxFailures.toNat < UInt32.size - 1 ∧
      policy.maxFailures.toNat + 1 ≤ streak ev.removed.id probes := by
  obtain ⟨i, hevicts⟩ := Moment.exists_evicts hn hev
  obtain ⟨noted, rfl, hcounts⟩ := h.counted
  have hinstance : i ∈ m.met.instances := Inventory.mem_instances.2 ⟨_, hevicts.stored⟩
  have hgt : policy.maxFailures < i.failures := by
    have hverdict := hevicts.verdict?
    rw [hreason] at hverdict
    rw [← hevicts.failures_eq]
    exact Policy.failures_gt_of_verdict? hverdict
  -- Its outcome has been noted, or it would not have more failures than allowed.
  have hnoted : ¬ g.Unnoted i.id := by
    intro hunnoted
    exact UInt32.lt_irrefl _ (UInt32.lt_of_lt_of_le hgt (h.bounded i hinstance hunnoted))
  have hstreak : streak i.id (noted ++ g.pending) = streak i.id noted := by
    refine streak_append_of_not_mem fun p hp heq => hnoted ?_
    cases g with
    | resting => trivial
    | busy waiting pending =>
      right
      rw [← heq]
      exact List.mem_map_of_mem hp
  rw [UInt32.lt_iff_toNat_lt, (hcounts i hinstance).toNat] at hgt
  rw [hevicts.id_eq, hstreak]
  omega

/-- At rest nothing is stored that has failed too often. -/
theorem Tallied.gone {inv : Inventory} (h : Tallied policy probes .resting inv)
    (hlimit : policy.maxFailures.toNat < UInt32.size - 1) {id : InstanceId}
    (hid : policy.maxFailures.toNat + 1 ≤ streak id probes) : inv.Spent id := by
  obtain ⟨noted, rfl, hcounts⟩ := h.counted
  have hnoted : noted ++ Progress.pending .resting = noted := List.append_nil noted
  rw [hnoted] at hid
  refine ⟨?_, fun hmem => ?_⟩
  · -- What has failed was probed, and what was probed had been given its number.
    by_contra hgiven
    have hnever : ∀ p ∈ noted, p.1.id ≠ id := by
      intro p hp heq
      exact hgiven (heq ▸ h.given p (List.mem_append_left _ hp))
    rw [streak_eq_zero hnever] at hid
    omega
  · obtain ⟨i, hi, rfl⟩ := List.mem_map.1 hmem
    have hle := h.bounded i hi trivial
    rw [UInt32.le_iff_toNat_le, (hcounts i hi).toNat] at hle
    omega

end

/-! ## Whole runs -/

/-- Passes one after the other, and requests that come at any time. -/
def supervised (cfg : Settings) (passes : Nat) (requests : List (Option Ip × Request))
    (w : World) : Crew Unit :=
  ⟨w, patrol cfg passes ::
    requests.map fun (peer, r) => Server.silently (Server.respond cfg peer r)⟩

/-- The first of some activities makes passes, and the others perform no outcomes. -/
structure Watched (cfg : Settings) (probes : List (Candidate × Reaction)) (g : Progress)
    (s : Crew Unit) : Prop where
  patrol : ∀ x, s.tasks[0]? = some x →
    Follows (Advances cfg.policy) (fun _ g' => g' = .resting) g x
  tallied : Tallied cfg.policy probes g s.world.inventory

/-- What the activity at a position may do to the inventory. -/
def Assigned (k : Nat) (e : Event) : Prop := k ≠ 0 → Server.Requested e

section

variable {cfg : Settings} {probes : List (Candidate × Reaction)} {g : Progress} {s : Crew Unit}
variable {t : Tick} {ticks : List Tick}

/-- A step of the first activity is a step of a pass. -/
theorem Watched.own (h : Watched cfg probes g s) (hw : s.world.inventory.WellFormed) :
    ∃ g', Watched cfg (probes ++ probesIn (s.stepsOf 0 [.proceed 0])) g'
      (s.perform (.proceed 0)) := by
  have hsteps : probesIn (s.stepsOf 0 [.proceed 0])
      = (probeMade? s.world (s.perform (.proceed 0)).world).toList := by
    simp only [Crew.stepsOf, if_true, probesIn, List.filterMap_cons, List.filterMap_nil]
    cases probeMade? s.world (s.perform (.proceed 0)).world <;> rfl
  rw [hsteps]
  rcases s.perform_proceed_cases 0 with ⟨act, next, hx, hafter⟩ | hsame
  · obtain ⟨g', hrule, hnext⟩ := h.patrol _ hx s.world
    refine ⟨g', ?_, ?_⟩
    · intro x hleft
      rw [hafter, List.getElem?_set_self (List.getElem?_eq_some_iff.1 hx).1] at hleft
      rw [← Option.some.inj hleft]
      exact hnext
    · rw [hafter]
      exact h.tallied.advances hw hrule
  · rw [hsame, probeMade?_of_same rfl, Option.toList_none, List.append_nil]
    exact ⟨g, h⟩

/-- Whatever another activity does, the first one is where it was. -/
theorem Watched.other (h : Watched cfg probes g s) {k : Nat} (hk : k ≠ 0)
    (hready : s.Ready cfg.policy Assigned (.proceed k :: ticks)) :
    Watched cfg probes g (s.perform (.proceed k)) where
  patrol := by
    intro x hx
    rcases s.perform_proceed_cases k with ⟨act, next, -, hafter⟩ | hsame
    · rw [hafter, List.getElem?_set_ne hk] at hx
      exact h.patrol x hx
    · rw [hsame] at hx
      exact h.patrol x hx
  tallied := by
    cases hready.affects with
    | nothing heq =>
      rw [heq]
      exact h.tallied
    | event j e hj hassigned hsound heq =>
      cases hj
      rw [heq]
      exact h.tallied.event hsound (hassigned hk).ne_noteProbe

theorem Watched.perform (h : Watched cfg probes g s)
    (hready : s.Ready cfg.policy Assigned (t :: ticks)) :
    ∃ g', Watched cfg (probes ++ probesIn (s.stepsOf 0 [t])) g' (s.perform t) := by
  cases t with
  | drift d =>
    refine ⟨g, h.patrol, ?_⟩
    rw [Crew.stepsOf, Crew.stepsOf, probesIn, List.filterMap_nil, List.append_nil]
    exact h.tallied
  | proceed k =>
    by_cases hk : k = 0
    · subst hk
      exact h.own hready.wellFormed
    · have hsteps : s.stepsOf 0 [.proceed k] = [] := by simp only [Crew.stepsOf, if_neg hk]
      rw [hsteps, probesIn, List.filterMap_nil, List.append_nil]
      exact ⟨g, h.other hk hready⟩

theorem Watched.after (h : Watched cfg probes g s)
    (hready : s.Ready cfg.policy Assigned ticks) :
    ∃ g', Watched cfg (probes ++ probesIn (s.stepsOf 0 ticks)) g' (s.after ticks) := by
  -- Along the schedule; `probes` are those made before.
  induction ticks generalizing s probes g with
  | nil => exact ⟨g, by rwa [Crew.stepsOf, probesIn, List.filterMap_nil, List.append_nil]⟩
  | cons t ticks ih =>
    obtain ⟨g₁, h₁⟩ := h.perform hready
    obtain ⟨g₂, h₂⟩ := ih h₁ hready.tail
    refine ⟨g₂, ?_⟩
    rw [Crew.stepsOf_cons, probesIn, List.filterMap_append, ← List.append_assoc]
    exact h₂

end

theorem steps_patrol {cfg : Settings} {P : Event → Prop} (hsweep : ∀ now, P ⟨now, .sweep⟩)
    (hnote : ∀ now id success, P ⟨now, .noteProbe id success⟩) (n : Nat) :
    Steps cfg.policy P (patrol cfg n) := by
  induction n with
  | zero => exact steps_pure ()
  | succ n ih => exact steps_bind (Server.steps_pass hsweep hnote) fun _ => ih

theorem ready_supervised {cfg : Settings} {passes : Nat} {requests : List (Option Ip × Request)}
    {w : World} (hw : w.inventory = .empty) {ticks : List Tick}
    (hroom : (supervised cfg passes requests w).creations ticks < UInt64.size) :
    (supervised cfg passes requests w).Ready cfg.policy Assigned ticks := by
  refine Crew.ready_of_empty hw (fun k x hx => ?_) hroom
  cases k with
  | zero =>
    cases hx
    exact steps_patrol (fun _ h => absurd rfl h) (fun _ _ _ h => absurd rfl h) passes
  | succ k =>
    rw [supervised, List.getElem?_cons_succ, List.getElem?_map, Option.map_eq_some_iff] at hx
    obtain ⟨⟨peer, r⟩, -, rfl⟩ := hx
    have hrespond : Steps cfg.policy Server.Requested
        (Server.silently (Server.respond cfg peer r)) :=
      Server.steps_silently (Server.steps_respond peer r)
    exact hrespond.mono fun _ hrequested _ => hrequested

/-- In a registry that was empty at first, at any moment of any run of passes that follow one
    another and of requests that come between any two of their steps.

    When the passes are complete, no instance is stored whose last probes have failed more
    often than the policy allows, as long as the count of failures can exceed that number;
    and the number of such an instance is spent, whatever follows.

    Whatever event happens at the moment, a step of a pass, of a request or any other, evicts
    no instance for its failures before its last probes have failed that often; and nothing is
    ever evicted for its failures if the count cannot exceed the number allowed. -/
theorem evicted_for_failures (cfg : Settings) (passes : Nat)
    (requests : List (Option Ip × Request)) (w : World) (hw : w.inventory = .empty)
    (ticks : List Tick) :
    let crew := supervised cfg passes requests w
    let now := (crew.after ticks).world.inventory
    let probes := probesIn (crew.stepsOf 0 ticks)
    let limit := cfg.policy.maxFailures.toNat
    crew.creations ticks < UInt64.size →
    (limit < UInt32.size - 1 → (crew.after ticks).value? 0 = some () →
      ∀ id, limit + 1 ≤ streak id probes → id ∉ now.ids ∧
        ∀ es, now.lastId.toNat + Inventory.creations cfg.policy now es < UInt64.size →
          id ∉ (Inventory.after cfg.policy now es).ids) ∧
    (∀ e ev, ev ∈ ((Moment.mk e now).answer cfg.policy).evictions →
      ev.reason = .excessiveFailures → limit + 1 ≤ streak ev.removed.id probes) ∧
    (limit = UInt32.size - 1 →
      ∀ e ev, ev ∈ ((Moment.mk e now).answer cfg.policy).evictions →
        ev.reason ≠ .excessiveFailures) := by
  intro crew now probes limit hroom
  have hready : crew.Ready cfg.policy Assigned ticks := ready_supervised hw hroom
  have hwell : now.WellFormed := hready.wellFormed_after
  have hstart : Watched cfg [] .resting crew := by
    refine ⟨?_, ?_⟩
    · rintro x ⟨⟩
      exact advances_patrol cfg passes
    · show Tallied cfg.policy [] .resting w.inventory
      rw [hw]
      exact tallied_empty cfg.policy
  obtain ⟨g, hwatched⟩ := hstart.after hready
  have htallied : Tallied cfg.policy probes g now := hwatched.tallied
  refine ⟨?_, ?_, ?_⟩
  · intro hlimit hdone id hid
    -- Complete passes are at rest.
    obtain rfl : g = .resting := hwatched.patrol _ (Crew.value?_eq_some.1 hdone)
    have hspent : now.Spent id := htallied.gone hlimit hid
    exact ⟨hspent.gone, fun es hmore => (hspent.run ⟨hwell, hmore⟩).1.gone⟩
  · intro e ev hev hreason
    exact (htallied.excessive (m := ⟨e, now⟩) hwell.ids_nodup hev hreason).2
  · intro hlimit e ev hev hreason
    have hlt := (htallied.excessive (m := ⟨e, now⟩) hwell.ids_nodup hev hreason).1
    omega

/-- A service that no longer answers is registered again while it is probed for the second
    time, and is evicted at the end of that pass, since one failure is allowed. -/
theorem evicted_for_failures_refreshed :
    let registry : Client.Handle := { origin := "http://registry" }
    let register := (registry.call .register (RegisterRequest.toJson
      ⟨⟨"kv", none⟩, [⟨"10.0.0.5", 9000, [.status]⟩]⟩)).request
    let cfg : Settings := { policy := { maxFailures := 1 } }
    let requests : List (Option Ip × Request) := [(none, register), (none, register)]
    let w : World := { clock := 1000, unixTime := 0, fleet := { onProbe := fun _ => .hangs } }
    let ticks : List Tick := List.replicate 6 (.proceed 1) ++ List.replicate 11 (.proceed 0)
      ++ List.replicate 2 (.proceed 2) ++ List.replicate 9 (.proceed 0)
    (supervised cfg 2 requests w).creations ticks = 1 ∧
    streak 1 (probesIn ((supervised cfg 2 requests w).stepsOf 0 (ticks.take 25))) = 2 ∧
    1 ∈ ((supervised cfg 2 requests w).after (ticks.take 22)).world.inventory.ids ∧
    1 ∉ ((supervised cfg 2 requests w).after ticks).world.inventory.ids := by
  intro registry register cfg requests w ticks
  have hmade : (supervised cfg 2 requests w).creations ticks = 1 := by decide +kernel
  have hroom : (supervised cfg 2 requests w).creations ticks < UInt64.size := by
    rw [hmade]
    decide
  have hdone : ((supervised cfg 2 requests w).after ticks).value? 0 = some () := by
    decide +kernel
  have hfailed : cfg.policy.maxFailures.toNat + 1
      ≤ streak 1 (probesIn ((supervised cfg 2 requests w).stepsOf 0 ticks)) := by
    decide +kernel
  obtain ⟨hgone, -⟩ := evicted_for_failures cfg 2 requests w rfl ticks hroom
  exact ⟨hmade, by decide +kernel, by decide +kernel, (hgone (by decide) hdone 1 hfailed).1⟩

end ServiceRegistry.Supervision
