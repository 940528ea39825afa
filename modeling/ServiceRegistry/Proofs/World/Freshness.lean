/-
  ServiceRegistry.Proofs.World.Freshness

  Schedules of actions under a clock that never goes back. A ghost keeps for each action whether it
  has read the clock and whether it has been performed (`Traced`); every step is one more reading in
  the log. So all times of all instances are readings of actions that have been performed, and what
  an event does to them is known (`allDated_after`).
-/
import ServiceRegistry.Proofs.World.Readings

namespace ServiceRegistry.World

open Inventory (Action Answer Event Moment SameRegistration)

variable {policy : Policy} {actions : List Action} {log : Log} {stages : Nat → Stage Unit}
variable {s : Crew Answer}

/-- The clock never goes back. -/
def Crew.Forward {α : Type} (s : Crew α) : List Tick → Prop
  | [] => True
  | t :: ticks => s.world.clock ≤ (s.perform t).world.clock ∧ (s.perform t).Forward ticks

instance Crew.decidableForward {α : Type} :
    (s : Crew α) → (ticks : List Tick) → Decidable (s.Forward ticks)
  | _, [] => .isTrue trivial
  | s, t :: ticks => @instDecidableAnd _ _ _ (decidableForward (s.perform t) ticks)

theorem Crew.forward_append {α : Type} {s : Crew α} {ticks more : List Tick} :
    s.Forward (ticks ++ more) ↔ s.Forward ticks ∧ (s.after ticks).Forward more := by
  induction ticks generalizing s with
  | nil => exact (and_iff_right trivial).symm
  | cons t ticks ih => exact (and_congr_right fun _ => ih).trans and_assoc.symm

theorem Crew.readings_append (s : Crew Answer) (ticks more : List Tick) :
    s.readings (ticks ++ more) = s.readings ticks ++ (s.after ticks).readings more := by
  induction ticks generalizing s with
  | nil => rfl
  | cons t ticks ih =>
    rw [List.cons_append, readings_cons, ih, readings_cons s t ticks, List.append_assoc]
    rfl

/-! ## One tick -/

/-- The stages of the actions, the readings so far and the times of the instances. -/
structure Traced (policy : Policy) (actions : List Action) (log : Log)
    (stages : Nat → Stage Unit) (s : Crew Answer) : Prop where
  performing : ∀ k x, s.tasks[k]? = some x →
    ∃ a, actions[k]? = some a ∧ Performing policy a (stages k) x
  unread : ∀ k, stages k = .before → log.filter (·.1 = k) = []
  timed : ∀ k now, stages k = .timed now → log.filter (·.1 = k) = [(k, now)]
  sorted : log.Sorted
  past : ∀ e ∈ log, e.2 ≤ s.world.clock
  dated : AllDated actions log s.world.inventory

/-- Time passes. -/
theorem Traced.drift (h : Traced policy actions log stages s) {w' : World}
    (hclock : s.world.clock ≤ w'.clock) (hinventory : w'.inventory = s.world.inventory) :
    Traced policy actions log stages ⟨w', s.tasks⟩ where
  performing := h.performing
  unread := h.unread
  timed := h.timed
  sorted := h.sorted
  past e he := UInt64.le_trans (h.past e he) hclock
  dated := by
    show AllDated actions log w'.inventory
    rw [hinventory]
    exact h.dated

theorem filter_snoc_of_ne {j k : Nat} (hjk : j ≠ k) (clock : UInt64) :
    (log ++ [(k, clock)]).filter (·.1 = j) = log.filter (·.1 = j) := by
  simp [List.filter_append, hjk.symm]

/-- An action takes a step, with a reading more in the log. -/
theorem Traced.step (h : Traced policy actions log stages s) {k : Nat} {a : Action}
    {x : Work Answer} {g : Stage Unit} (hk : actions[k]? = some a) (hx : Performing policy a g x)
    (hbefore : g ≠ .before)
    (htimed : ∀ now, g = .timed now → now = s.world.clock ∧ stages k = .before) {w' : World}
    (hclock : s.world.clock ≤ w'.clock)
    (hdated : AllDated actions (log ++ [(k, s.world.clock)]) w'.inventory) :
    Traced policy actions (log ++ [(k, s.world.clock)]) (Function.update stages k g)
      ⟨w', s.tasks.set k x⟩ where
  performing := forall_set_update
    (p := fun j y g => ∃ a, actions[j]? = some a ∧ Performing policy a g y) h.performing ⟨a, hk, hx⟩
  unread := by
    refine (Function.forall_update_iff stages fun j g => g = .before →
      (log ++ [(k, s.world.clock)]).filter (·.1 = j) = []).2 ⟨fun hg => absurd hg hbefore, ?_⟩
    intro j hj hstage
    rw [filter_snoc_of_ne hj]
    exact h.unread j hstage
  timed := by
    refine (Function.forall_update_iff stages fun j g => ∀ now, g = .timed now →
      (log ++ [(k, s.world.clock)]).filter (·.1 = j) = [(j, now)]).2 ⟨fun now hg => ?_, ?_⟩
    · obtain ⟨rfl, hstage⟩ := htimed now hg
      rw [List.filter_append, h.unread k hstage]
      simp
    · intro j hj now hstage
      rw [filter_snoc_of_ne hj]
      exact h.timed j now hstage
  sorted := by
    refine List.pairwise_append.2 ⟨h.sorted, List.pairwise_singleton _ _, fun e he e' he' => ?_⟩
    rw [List.mem_singleton.1 he']
    exact h.past e he
  past e he := by
    rcases List.mem_append.1 he with he | he
    · exact UInt64.le_trans (h.past e he) hclock
    · rw [List.mem_singleton.1 he]
      exact hclock
  dated := hdated

/-- An action is performed, with the reading it has or without one. -/
theorem Traced.event (h : Traced policy actions log stages s) {fits : Nat → Event → Prop}
    {k : Nat} {ticks : List Tick} (hready : s.Ready policy fits (.proceed k :: ticks))
    (hclock : s.world.clock ≤ (s.perform (.proceed k)).world.clock) {a : Action} {now : UInt64}
    {x : Work Answer} (hk : actions[k]? = some a) (hx : Performing policy a (.decided ()) x)
    (hperforms : stages k = .timed now ∨ ∀ i, ¬ a.Confirms i)
    (hafter : s.perform (.proceed k) = ⟨(s.perform (.proceed k)).world, s.tasks.set k x⟩)
    (hinventory : (s.perform (.proceed k)).world.inventory
      = (Moment.mk ⟨now, a⟩ s.world.inventory).after policy) :
    Traced policy actions (log ++ [(k, s.world.clock)]) (Function.update stages k (.decided ()))
        (s.perform (.proceed k)) ∧
      AllOnward actions (log ++ [(k, s.world.clock)]) s.world.inventory
        (s.perform (.proceed k)).world.inventory := by
  have hentering : Entering actions log k a now ∨ ∀ i, ¬ a.Confirms i :=
    hperforms.imp_left fun hstage => ⟨hk, h.timed k now hstage⟩
  obtain ⟨hdated, honward⟩ := allDated_after s.world.clock
    (hready.sound hinventory) h.sorted hentering h.dated
  rw [← hinventory] at hdated honward
  refine ⟨?_, honward⟩
  rw [hafter]
  exact h.step hk hx nofun nofun hclock hdated

/-- After a tick the actions are traced on, and no time has gone back for nothing. -/
theorem Traced.perform (h : Traced policy actions log stages s) {fits : Nat → Event → Prop}
    {t : Tick} {ticks : List Tick} (hready : s.Ready policy fits (t :: ticks))
    (hclock : s.world.clock ≤ (s.perform t).world.clock) :
    (∃ stages', Traced policy actions (log ++ s.readings [t]) stages' (s.perform t)) ∧
      AllOnward actions (log ++ s.readings [t]) s.world.inventory
        (s.perform t).world.inventory := by
  have hsame : ∀ log', AllOnward actions log' s.world.inventory s.world.inventory :=
    fun _ => allOnward_refl hready.wellFormed
  cases t with
  | drift d =>
    rw [Crew.readings, Crew.readings, List.append_nil]
    exact ⟨⟨stages, h.drift hclock rfl⟩, hsame log⟩
  | proceed k =>
    cases hk : s.tasks[k]? with
    | none =>
      have hstill : s.perform (.proceed k) = s := by simp only [Crew.perform, hk]
      simp only [Crew.readings, hk, List.append_nil, hstill]
      exact ⟨⟨stages, h⟩, hsame log⟩
    | some x =>
      cases x with
      | done answer =>
        have hstill : s.perform (.proceed k) = s := by simp only [Crew.perform, hk]
        simp only [Crew.readings, hk, List.append_nil, hstill]
        exact ⟨⟨stages, h⟩, hsame log⟩
      | step act next =>
        have hafter := Crew.perform_proceed hk
        have hworld : (s.perform (.proceed k)).world = act s.world := by rw [hafter]
        have hreadings : s.readings [.proceed k] = [(k, s.world.clock)] := by
          simp only [Crew.readings, hk]
        rw [hreadings]
        obtain ⟨a, haction, hperforming⟩ := h.performing k _ hk
        obtain ⟨g, hrule, hnext⟩ := hperforming s.world
        -- The stage that the action is at leaves only some of the rules for its step.
        generalize hstage : stages k = q at hrule
        cases hrule with
        | read hinventory =>
          have hdated : AllDated actions (log ++ [(k, s.world.clock)]) (act s.world).inventory := by
            rw [hinventory]
            exact fun service i hi => (h.dated service i hi).mono (List.sublist_append_left ..)
          rw [hworld] at hclock ⊢
          rw [hafter, hinventory]
          refine ⟨⟨_, h.step haction hnext ?_ ?_ hclock hdated⟩, hsame _⟩
          · rintro ⟨⟩
          · rintro now ⟨⟩
            exact ⟨rfl, hstage⟩
        | enter hinventory =>
          rw [← hworld] at hinventory hafter
          obtain ⟨htraced, honward⟩ :=
            h.event hready hclock haction hnext (.inl hstage) hafter hinventory
          exact ⟨⟨_, htraced⟩, honward⟩
        | atOnce hsilent hinventory =>
          rw [← hworld] at hinventory hafter
          obtain ⟨htraced, honward⟩ :=
            h.event hready hclock haction hnext (.inr hsilent) hafter hinventory
          exact ⟨⟨_, htraced⟩, honward⟩

/-! ## Whole schedules -/

theorem Traced.after (h : Traced policy actions log stages s) {fits : Nat → Event → Prop}
    {ticks : List Tick} (hready : s.Ready policy fits ticks) (hforward : s.Forward ticks) :
    ∃ stages', Traced policy actions (log ++ s.readings ticks) stages' (s.after ticks) := by
  induction ticks generalizing log stages s with
  | nil =>
    rw [Crew.readings, List.append_nil]
    exact ⟨stages, h⟩
  | cons t ticks ih =>
    obtain ⟨hclock, hrest⟩ := hforward
    obtain ⟨⟨stages₁, h₁⟩, -⟩ := h.perform hready hclock
    rw [readings_cons, ← List.append_assoc]
    exact ih h₁ hready.tail hrest

/-- Before the first step. -/
theorem traced_start (cfg : Settings) (actions : List Action) {w : World}
    (hempty : w.inventory = .empty) :
    Traced cfg.policy actions [] (fun _ => .before) ⟨w, actions.map (carryOut cfg)⟩ where
  performing k x hx := by
    rw [List.getElem?_map, Option.map_eq_some_iff] at hx
    obtain ⟨a, ha, rfl⟩ := hx
    exact ⟨a, ha, performing_carryOut cfg a⟩
  unread _ _ := rfl
  timed _ _ hstage := by cases hstage
  sorted := List.Pairwise.nil
  past := List.forall_mem_nil _
  dated := by
    show AllDated actions [] w.inventory
    rw [hempty]
    exact fun _ _ hi => nomatch hi

/-- Actions of any kind on an inventory, empty at first, each reading the clock before it is
    performed, under a clock that never goes back, in any order of their steps.

    No time of a stored instance is ahead of the clock. Its time of refresh is earlier than its
    registration only if a registration of its endpoint was overtaken by another one, and its time
    of success only if a registration or a successful probe of it was. From one state to the next
    an instance keeps its registration, and its times go back only if an action that sets them has
    been overtaken so by the one that had set them before. -/
theorem times_unless_overtaken (cfg : Settings) (actions : List Action) (w : World)
    (ticks : List Tick) (t : Tick) (hempty : w.inventory = .empty)
    (hforward : Crew.Forward ⟨w, actions.map (carryOut cfg)⟩ (ticks ++ [t]))
    (hroom : Crew.creations ⟨w, actions.map (carryOut cfg)⟩ (ticks ++ [t]) < UInt64.size) :
    let s := Crew.after ⟨w, actions.map (carryOut cfg)⟩ ticks
    let log := Crew.readings ⟨w, actions.map (carryOut cfg)⟩ (ticks ++ [t])
    (∀ service i, (service, i) ∈ (s.perform t).world.inventory.stored →
      i.firstRegistered ≤ (s.perform t).world.clock ∧ i.lastRefresh ≤ (s.perform t).world.clock ∧
      i.lastSuccess ≤ (s.perform t).world.clock ∧
      (i.lastRefresh < i.firstRegistered →
        Overtaken actions log (·.Renews i) i.lastRefresh i.firstRegistered) ∧
      (i.lastSuccess < i.firstRegistered →
        Overtaken actions log (·.Confirms i) i.lastSuccess i.firstRegistered)) ∧
    ∀ service i, (service, i) ∈ s.world.inventory.stored →
      ∀ service' j, (service', j) ∈ (s.perform t).world.inventory.stored → j.id = i.id →
        service' = service ∧ SameRegistration i j ∧
        (j.lastRefresh < i.lastRefresh →
          Overtaken actions log (·.Renews i) j.lastRefresh i.lastRefresh) ∧
        (j.lastSuccess < i.lastSuccess →
          Overtaken actions log (·.Confirms i) j.lastSuccess i.lastSuccess) := by
  intro s log
  have hstart := traced_start cfg actions hempty
  have hready : Crew.Ready cfg.policy (fun k e => actions[k]? = some e.action)
      ⟨w, actions.map (carryOut cfg)⟩ (ticks ++ [t]) := by
    refine Crew.ready_of_empty hempty (fun k x hx => ?_) hroom
    obtain ⟨a, ha, hperforming⟩ := hstart.performing k x hx
    exact hperforming.steps.mono fun e he => he ▸ ha
  obtain ⟨hbefore, hclock, -⟩ := Crew.forward_append.1 hforward
  obtain ⟨stages, htraced⟩ := hstart.after hready.append_left hbefore
  obtain ⟨⟨stages', htraced'⟩, honward⟩ := htraced.perform hready.append_right hclock
  have hlog : [] ++ Crew.readings ⟨w, actions.map (carryOut cfg)⟩ ticks ++ s.readings [t] = log :=
    (Crew.readings_append _ ticks [t]).symm
  rw [hlog] at htraced' honward
  refine ⟨fun service i hi => ?_, fun service i hi service' j hj hid => ?_⟩
  · have hdated := htraced'.dated service i hi
    have hpast : ∀ {p : Action → Prop} {now : UInt64}, Performed actions log p now →
        now ≤ (s.perform t).world.clock := by
      intro p now hperformed
      obtain ⟨k, hk⟩ := hperformed.mem_log
      exact htraced'.past _ hk
    exact ⟨hpast hdated.registered, hpast hdated.refreshed, hpast hdated.succeeded,
      hdated.refreshed_before, hdated.succeeded_before⟩
  · obtain ⟨hservice, hkept⟩ := honward service i hi service' j hj hid
    exact ⟨hservice, hkept.toSameRegistration, hkept.refreshed_back, hkept.succeeded_back⟩

/-- Two registrations of an endpoint and a probe of it. The first registration reads the clock
    before the second one and is performed after it; the probe is answered in time. -/
theorem times_unless_overtaken_twice :
    let kv : Action := .enrol ⟨"kv", none⟩ ⟨"node-1", 9000⟩ [.tcp]
    let actions : List Action := [kv, kv, .noteProbe 1 true]
    let start : Crew Answer := ⟨{ clock := 1000, unixTime := 0 }, actions.map (carryOut {})⟩
    let ticks : List Tick := [.proceed 0, .drift ⟨2000, 0, {}⟩, .proceed 1, .proceed 1,
      .drift ⟨3000, 0, {}⟩, .proceed 2, .proceed 2]
    let i : Instance :=
      { Instance.enrolled 1 ⟨"node-1", 9000⟩ [.tcp] 2000 with lastSuccess := 3000 }
    start.Forward (ticks ++ [.proceed 0]) ∧
    start.creations (ticks ++ [.proceed 0]) < UInt64.size ∧
    (start.after ticks).world.inventory.stored = [(⟨"kv", none⟩, i)] ∧
    ((start.after ticks).perform (.proceed 0)).world.inventory.stored
      = [(⟨"kv", none⟩, { i with lastRefresh := 1000 })] ∧
    Overtaken actions (start.readings (ticks ++ [.proceed 0])) (·.Renews i) 1000 2000 := by
  intro kv actions start ticks i
  have hforward : start.Forward (ticks ++ [.proceed 0]) := by decide +kernel
  have hroom : start.creations (ticks ++ [.proceed 0]) < UInt64.size := by decide +kernel
  have hbefore : (start.after ticks).world.inventory.stored = [(⟨"kv", none⟩, i)] := by
    decide +kernel
  have hafter : ((start.after ticks).perform (.proceed 0)).world.inventory.stored
      = [(⟨"kv", none⟩, { i with lastRefresh := 1000 })] := by decide +kernel
  obtain ⟨hall, -⟩ :=
    times_unless_overtaken {} actions start.world ticks (.proceed 0) rfl hforward hroom
  refine ⟨hforward, hroom, hbefore, hafter, ?_⟩
  obtain ⟨-, -, -, hrefreshed, -⟩ := hall _ _ (hafter ▸ List.mem_singleton_self _)
  exact hrefreshed (by decide)

/-- Two registrations of an endpoint. The clock goes on from 1000 to 2000 between their readings.
    The first one is performed last, and sets the time of refresh back from 2000 to 1000, before
    the registration of the instance. -/
theorem refresh_set_back :
    let kv : Action := .enrol ⟨"kv", none⟩ ⟨"node-1", 9000⟩ [.tcp]
    let start : Crew Answer := ⟨{ clock := 1000, unixTime := 0 }, [kv, kv].map (carryOut {})⟩
    let ticks : List Tick := [.proceed 0, .drift ⟨2000, 0, {}⟩, .proceed 1, .proceed 1]
    let i := Instance.enrolled 1 ⟨"node-1", 9000⟩ [.tcp] 2000
    let j := { i with lastRefresh := 1000 }
    start.Forward (ticks ++ [.proceed 0]) ∧
    (start.after ticks).world.inventory.stored = [(⟨"kv", none⟩, i)] ∧
    ((start.after ticks).perform (.proceed 0)).world.inventory.stored = [(⟨"kv", none⟩, j)] ∧
    ¬ i.lastRefresh ≤ j.lastRefresh ∧ ¬ j.firstRegistered ≤ j.lastRefresh := by
  intro kv start ticks i j
  exact ⟨by decide +kernel, by decide +kernel, by decide +kernel, by decide, by decide⟩

end ServiceRegistry.World
