/-
  ServiceRegistry.Proofs.World.Readings

  Clock readings that are used later. An action on the inventory reads the clock in one step and is
  performed with this reading in the next, and others may be performed in between with readings of
  their own. So the times of an instance can be set back, although the clock never goes back.

  It takes an action that is overtaken: one that has read the clock before another of the same
  instance and is performed after it (`Overtaken`). The readings of all steps are in order, so an
  earlier reading was read before (`sublist_cons_of_lt`); and whatever time of an instance there is,
  an action that has been performed has read it (`Dated`). Hence no time goes back unless an action
  is overtaken (`Onward`).
-/
import ServiceRegistry.Proofs.Inventory.Times
import ServiceRegistry.Proofs.World.Crew

namespace ServiceRegistry.World

open Inventory (Action Aged Answer Born Event Moment SameRegistration)

/-! ## Actions as activities -/

/-- The activity of an action. -/
def carryOut (cfg : Settings) : Action → Work Answer
  | .enrol service endpoint capabilities => do
    let result ← enrol service endpoint capabilities
    pure (.enrolled result)
  | .retire id => do
    let result ← retire id
    pure (.retired result)
  | .withdraw id => do
    let result ← withdraw cfg id
    pure (.withdrawn result)
  | .withdrawPorts host ports => do
    let evictions ← withdrawPorts cfg host ports
    pure (.swept evictions)
  | .sweep => do
    let evictions ← sweep cfg
    pure (.swept evictions)
  | .noteProbe id success => do
    let failures ← noteProbe id success
    pure (.noted failures)

/-- How a step of an action may treat the inventory: the clock is read first, and the action is
    performed with the reading. An action that sets no time may be performed without one. -/
inductive Reads (policy : Policy) (a : Action) : Stage Unit → World → World → Stage Unit → Prop
  | read {w w' : World} (hinventory : w'.inventory = w.inventory) :
    Reads policy a .before w w' (.timed w.clock)
  | enter {now : UInt64} {w w' : World}
    (hinventory : w'.inventory = (Moment.mk ⟨now, a⟩ w.inventory).after policy) :
    Reads policy a (.timed now) w w' (.decided ())
  | atOnce {now : UInt64} {w w' : World} (haction : ∀ i, ¬ a.Confirms i)
    (hinventory : w'.inventory = (Moment.mk ⟨now, a⟩ w.inventory).after policy) :
    Reads policy a .before w w' (.decided ())

/-- From the stage on, the activity has the action before it and nothing else. -/
def Performing (policy : Policy) (a : Action) : Stage Unit → Work Answer → Prop :=
  Follows (Reads policy a) fun _ g => g = .decided ()

section

variable {α : Type} {policy : Policy} {a : Action}

/-- Trying a change in a step does what attempting it in an event does. -/
theorem tries_eq (f : UInt64 → Inventory → Except RegistryError (α × Inventory))
    {answer : Except RegistryError α → Answer}
    (h : ∀ now inv, (Event.mk now a).perform policy inv
      = Inventory.attempt inv answer (f now inv)) (now : UInt64) (inv : Inventory) :
    (tries f now inv).2 = (Moment.mk ⟨now, a⟩ inv).after policy := by
  show _ = ((Event.mk now a).perform policy inv).2
  rw [h]
  unfold tries
  cases f now inv <;> rfl

theorem performing_carryOut (cfg : Settings) (a : Action) :
    Performing cfg.policy a .before (carryOut cfg a) := by
  cases a with
  | enrol service endpoint capabilities =>
    let change (now : UInt64) (inv : Inventory) := inv.enrol service endpoint capabilities now
    exact fun w => ⟨_, .read rfl, fun w' =>
      ⟨_, .enter (tries_eq change (fun _ _ => rfl) w.clock w'.inventory), rfl⟩⟩
  | retire id =>
    let change (_ : UInt64) (inv : Inventory) := inv.retire id
    exact fun w =>
      ⟨_, .atOnce (fun _ h => h) (tries_eq change (fun _ _ => rfl) w.clock w.inventory), rfl⟩
  | withdraw id =>
    let change (now : UInt64) (inv : Inventory) := inv.withdraw cfg.policy id now
    exact fun w => ⟨_, .read rfl, fun w' =>
      ⟨_, .enter (tries_eq change (fun _ _ => rfl) w.clock w'.inventory), rfl⟩⟩
  | withdrawPorts host ports => exact fun w => ⟨_, .read rfl, fun w' => ⟨_, .enter rfl, rfl⟩⟩
  | sweep => exact fun w => ⟨_, .read rfl, fun w' => ⟨_, .enter rfl, rfl⟩⟩
  | noteProbe id success => exact fun w => ⟨_, .read rfl, fun w' => ⟨_, .enter rfl, rfl⟩⟩

theorem Performing.steps {g : Stage Unit} {x : Work Answer} (h : Performing policy a g x) :
    Steps policy (·.action = a) x := by
  induction x generalizing g with
  | done answer => trivial
  | step act next ih =>
    intro w
    obtain ⟨g', hrule, hnext⟩ := h w
    refine ⟨?_, ih w hnext⟩
    cases hrule with
    | read hinventory => exact .inl hinventory
    | enter hinventory => exact .inr ⟨_, rfl, hinventory⟩
    | atOnce _ hinventory => exact .inr ⟨_, rfl, hinventory⟩

end

/-! ## The order of readings -/

/-- The position and the clock of every step so far. -/
abbrev Log : Type := List (Nat × UInt64)

/-- The readings are in order. -/
def Log.Sorted (log : Log) : Prop := log.Pairwise fun x y => x.2 ≤ y.2

/-- An action with the property has read the clock, and then it was performed. -/
def Performed (actions : List Action) (log : Log) (p : Action → Prop) (now : UInt64) : Prop :=
  ∃ k a later, actions[k]? = some a ∧ p a ∧ [(k, now), (k, later)].Sublist log

/-- Of two actions with the property the one that was first to read the clock, at `now`, is the
    last to be performed. -/
def Overtaken (actions : List Action) (log : Log) (p : Action → Prop) (now other : UInt64) :
    Prop :=
  ∃ k j a b between later, k ≠ j ∧ actions[k]? = some a ∧ actions[j]? = some b ∧ p a ∧ p b ∧
    [(k, now), (j, other), (j, between), (k, later)].Sublist log

section

variable {actions : List Action} {log : Log} {p : Action → Prop}

/-- In a log that is in order, an earlier reading comes first. -/
theorem Log.Sorted.sublist_cons_of_lt (h : log.Sorted) {x y : Nat × UInt64} {ys : Log}
    (hx : x ∈ log) (hys : (y :: ys).Sublist log) (hlt : x.2 < y.2) :
    (x :: y :: ys).Sublist log := by
  induction log with
  | nil => cases hx
  | cons z log ih =>
    obtain ⟨hz, hlog⟩ := List.pairwise_cons.1 h
    cases hys with
    | cons _ hys =>
      rcases List.mem_cons.1 hx with rfl | hx
      · exact hys.cons_cons x
      · exact (ih hlog hx hys).cons z
    | cons_cons _ hys =>
      -- Nothing in the log is earlier than its first reading.
      rcases List.mem_cons.1 hx with rfl | hx
      · exact absurd hlt (UInt64.lt_irrefl _)
      · exact absurd (UInt64.lt_of_lt_of_le hlt (hz x hx)) (UInt64.lt_irrefl _)

theorem Performed.mono {now : UInt64} (h : Performed actions log p now) {q : Action → Prop}
    (hpq : ∀ a, p a → q a) {log' : Log} (hlog : log.Sublist log') :
    Performed actions log' q now := by
  obtain ⟨k, a, later, hk, ha, hsub⟩ := h
  exact ⟨k, a, later, hk, hpq a ha, hsub.trans hlog⟩

theorem Performed.mem_log {now : UInt64} (h : Performed actions log p now) :
    ∃ k, (k, now) ∈ log := by
  obtain ⟨k, _, _, _, _, hlog⟩ := h
  exact ⟨k, hlog.subset List.mem_cons_self⟩

theorem Overtaken.mono {now other : UInt64} (h : Overtaken actions log p now other) {log' : Log}
    (hlog : log.Sublist log') : Overtaken actions log' p now other := by
  obtain ⟨k, j, a, b, between, later, hkj, hk, hj, ha, hb, hsub⟩ := h
  exact ⟨k, j, a, b, between, later, hkj, hk, hj, ha, hb, hsub.trans hlog⟩

/-- The activity at `k` has read the clock at `now`, and has taken no other step. -/
structure Entering (actions : List Action) (log : Log) (k : Nat) (a : Action) (now : UInt64) :
    Prop where
  action : actions[k]? = some a
  reading : log.filter (·.1 = k) = [(k, now)]

variable {k : Nat} {a : Action} {now : UInt64} (h : Entering actions log k a now)

include h

theorem Entering.mem_log : (k, now) ∈ log := by
  have hmem : (k, now) ∈ log.filter (·.1 = k) := by
    rw [h.reading]
    exact List.mem_cons_self
  exact (List.mem_filter.1 hmem).1

theorem Entering.performed (ha : p a) (clock : UInt64) :
    Performed actions (log ++ [(k, clock)]) p now :=
  ⟨k, a, clock, h.action, ha, (List.singleton_sublist.2 h.mem_log).append (List.Sublist.refl _)⟩

/-- Who has performed an action with a later reading has overtaken it. -/
theorem Entering.overtaken (hsorted : log.Sorted) (ha : p a) {other : UInt64}
    (hother : Performed actions log p other) (hlt : now < other) (clock : UInt64) :
    Overtaken actions (log ++ [(k, clock)]) p now other := by
  obtain ⟨j, b, between, hj, hb, hlog⟩ := hother
  refine ⟨k, j, a, b, between, clock, ?_, h.action, hj, ha, hb, ?_⟩
  · rintro rfl
    -- It has taken only one step.
    have htwo := hlog.filter (·.1 = k)
    rw [h.reading] at htwo
    have hlength := htwo.length_le
    simp at hlength
  · exact (hsorted.sublist_cons_of_lt h.mem_log hlog hlt).append (List.Sublist.refl _)

end

/-! ## The times of an instance -/

/-- Every time of the instance is the reading of an action that may set it. It may be earlier than
    the registration only if its action was overtaken by a registration. -/
structure Dated (actions : List Action) (log : Log) (i : Instance) : Prop where
  registered : Performed actions log (·.Renews i) i.firstRegistered
  refreshed : Performed actions log (·.Renews i) i.lastRefresh
  succeeded : Performed actions log (·.Confirms i) i.lastSuccess
  refreshed_before : i.lastRefresh < i.firstRegistered →
    Overtaken actions log (·.Renews i) i.lastRefresh i.firstRegistered
  succeeded_before : i.lastSuccess < i.firstRegistered →
    Overtaken actions log (·.Confirms i) i.lastSuccess i.firstRegistered

/-- An instance before and after something has happened: a time goes back only if the action that
    has set it was overtaken. -/
structure Onward (actions : List Action) (log : Log) (i j : Instance) : Prop
    extends SameRegistration i j where
  refreshed_back : j.lastRefresh < i.lastRefresh →
    Overtaken actions log (·.Renews i) j.lastRefresh i.lastRefresh
  succeeded_back : j.lastSuccess < i.lastSuccess →
    Overtaken actions log (·.Confirms i) j.lastSuccess i.lastSuccess

section

variable {actions : List Action} {log : Log} {i j : Instance}

theorem Onward.refl (i : Instance) : Onward actions log i i where
  toSameRegistration := .refl i
  refreshed_back h := absurd h (UInt64.lt_irrefl _)
  succeeded_back h := absurd h (UInt64.lt_irrefl _)

theorem Dated.mono (h : Dated actions log i) {log' : Log} (hlog : log.Sublist log') :
    Dated actions log' i where
  registered := h.registered.mono (fun _ => id) hlog
  refreshed := h.refreshed.mono (fun _ => id) hlog
  succeeded := h.succeeded.mono (fun _ => id) hlog
  refreshed_before hlt := (h.refreshed_before hlt).mono hlog
  succeeded_before hlt := (h.succeeded_before hlt).mono hlog

theorem Dated.registered_confirms (h : Dated actions log i) :
    Performed actions log (·.Confirms i) i.firstRegistered :=
  h.registered.mono (fun _ => Action.Renews.confirms) (List.Sublist.refl log)

/-- What becomes of a time: an action has been performed that has read the new one, and the new
    one comes before another only by overtaking if the old one does. -/
structure Reset (actions : List Action) (log log' : Log) (p : Action → Prop)
    (old new : UInt64) : Prop where
  performed : Performed actions log' p new
  before : ∀ other, Performed actions log p other →
    (old < other → Overtaken actions log p old other) →
    new < other → Overtaken actions log' p new other

variable {log' : Log} (hlog : log.Sublist log') {p : Action → Prop} {old new : UInt64}

include hlog

theorem reset_same (hold : Performed actions log p old) : Reset actions log log' p old old where
  performed := hold.mono (fun _ => id) hlog
  before _ _ hbefore hlt := (hbefore hlt).mono hlog

/-- If its times have been reset, an instance has times as before, and none goes back for
    nothing. -/
theorem Dated.reset (hi : Dated actions log i) (hsame : SameRegistration i j)
    (hrefresh : Reset actions log log' (·.Renews i) i.lastRefresh j.lastRefresh)
    (hsuccess : Reset actions log log' (·.Confirms i) i.lastSuccess j.lastSuccess) :
    Dated actions log' j ∧ Onward actions log' i j := by
  have hrenews : (fun b : Action => b.Renews j) = fun b => b.Renews i :=
    funext fun _ => propext hsame.renews_iff
  have hconfirms : (fun b : Action => b.Confirms j) = fun b => b.Confirms i :=
    funext fun _ => propext hsame.confirms_iff
  have hself : ∀ {now : UInt64} {q : Prop}, now < now → q :=
    fun hlt => absurd hlt (UInt64.lt_irrefl _)
  refine ⟨⟨?_, ?_, ?_, fun hlt => ?_, fun hlt => ?_⟩, hsame,
    hrefresh.before _ hi.refreshed hself, hsuccess.before _ hi.succeeded hself⟩
  · rw [hrenews, hsame.firstRegistered_eq]
    exact hi.registered.mono (fun _ => id) hlog
  · rw [hrenews]
    exact hrefresh.performed
  · rw [hconfirms]
    exact hsuccess.performed
  · rw [hsame.firstRegistered_eq] at hlt ⊢
    rw [hrenews]
    exact hrefresh.before _ hi.registered hi.refreshed_before hlt
  · rw [hsame.firstRegistered_eq] at hlt ⊢
    rw [hconfirms]
    exact hsuccess.before _ hi.registered_confirms hi.succeeded_before hlt

end

/-! ## One event -/

section

variable {policy : Policy} {actions : List Action} {log : Log} {k : Nat}

/-- A new time is the reading of the action, if it is not the old one. -/
theorem Entering.reset {a : Action} {now clock : UInt64} (h : Entering actions log k a now)
    (hsorted : log.Sorted) {p : Action → Prop} {old new : UInt64}
    (hnew : new = old ∨ p a ∧ new = now) (hold : Performed actions log p old) :
    Reset actions log (log ++ [(k, clock)]) p old new := by
  rcases hnew with rfl | ⟨ha, rfl⟩
  · exact reset_same (List.sublist_append_left ..) hold
  · exact ⟨h.performed ha clock, fun _ hother _ hlt => h.overtaken hsorted ha hother hlt clock⟩

theorem Entering.born {a : Action} {now clock : UInt64} (h : Entering actions log k a now)
    {j : Instance} (hborn : Born ⟨now, a⟩ j) : Dated actions (log ++ [(k, clock)]) j := by
  obtain ⟨hrenews, hregistered, hrefresh, hsuccess⟩ := hborn
  refine ⟨?_, ?_, ?_, fun hlt => ?_, fun hlt => ?_⟩
  · rw [hregistered]
    exact h.performed hrenews clock
  · rw [hrefresh]
    exact h.performed hrenews clock
  · rw [hsuccess]
    exact h.performed hrenews.confirms clock
  · rw [hrefresh, hregistered] at hlt
    exact absurd hlt (UInt64.lt_irrefl _)
  · rw [hsuccess, hregistered] at hlt
    exact absurd hlt (UInt64.lt_irrefl _)

/-- All stored instances have times with readings. -/
def AllDated (actions : List Action) (log : Log) (inv : Inventory) : Prop :=
  ∀ s i, (s, i) ∈ inv.stored → Dated actions log i

/-- Of all instances that are stored before and after, no time goes back for nothing. -/
def AllOnward (actions : List Action) (log : Log) (inv inv' : Inventory) : Prop :=
  ∀ s i, (s, i) ∈ inv.stored → ∀ s' j, (s', j) ∈ inv'.stored → j.id = i.id →
    s' = s ∧ Onward actions log i j

theorem allOnward_refl {inv : Inventory} (h : inv.WellFormed) : AllOnward actions log inv inv := by
  intro s i hi s' j hj hid
  obtain ⟨rfl, rfl⟩ := Inventory.eq_of_id_eq h.ids_nodup hj hi hid
  exact ⟨rfl, .refl j⟩

variable {m : Moment}

theorem dated_aged (clock : UInt64) (hsorted : log.Sorted)
    (hperforms : Entering actions log k m.action m.now ∨ ∀ i, ¬ m.action.Confirms i)
    {i j : Instance} (hi : Dated actions log i) (haged : Aged m.toEvent i j) :
    Dated actions (log ++ [(k, clock)]) j ∧ Onward actions (log ++ [(k, clock)]) i j := by
  have hlog : log.Sublist (log ++ [(k, clock)]) := List.sublist_append_left ..
  have hsame := haged.toSameRegistration
  rcases hperforms with hentering | hsilent
  · have hrefresh := haged.lastRefresh_eq.imp_right (And.imp_left hsame.renews_iff.1)
    have hsuccess := haged.lastSuccess_eq.imp_right (And.imp_left hsame.confirms_iff.1)
    exact hi.reset hlog hsame (hentering.reset hsorted hrefresh hi.refreshed)
      (hentering.reset hsorted hsuccess hi.succeeded)
  · have hrefresh : j.lastRefresh = i.lastRefresh :=
      haged.lastRefresh_eq.resolve_right fun hset => hsilent j hset.1.confirms
    have hsuccess : j.lastSuccess = i.lastSuccess :=
      haged.lastSuccess_eq.resolve_right fun hset => hsilent j hset.1
    refine hi.reset hlog hsame ?_ ?_
    · rw [hrefresh]
      exact reset_same hlog hi.refreshed
    · rw [hsuccess]
      exact reset_same hlog hi.succeeded

/-- An event of an action whose reading is in the log, or of one that sets no time. -/
theorem allDated_after (clock : UInt64) (hm : m.Sound policy) (hsorted : log.Sorted)
    (hperforms : Entering actions log k m.action m.now ∨ ∀ i, ¬ m.action.Confirms i)
    (hdated : AllDated actions log m.met) :
    AllDated actions (log ++ [(k, clock)]) (m.after policy) ∧
      AllOnward actions (log ++ [(k, clock)]) m.met (m.after policy) := by
  constructor
  · intro s j hj
    rcases hm.born_or_aged hj with ⟨-, hborn⟩ | ⟨i, hi, haged⟩
    · rcases hperforms with hentering | hsilent
      · exact hentering.born hborn
      · exact absurd hborn.renews.confirms (hsilent j)
    · exact (dated_aged clock hsorted hperforms (hdated s i hi) haged).1
  · intro s i hi s' j hj hid
    obtain ⟨rfl, haged⟩ := hm.aged_of_id_eq hi hj hid
    exact ⟨rfl, (dated_aged clock hsorted hperforms (hdated s' i hi) haged).2⟩

end

end ServiceRegistry.World
