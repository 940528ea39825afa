/-
  ServiceRegistry.Proofs.Inventory.History

  A stored instance is determined by what has happened since it was registered. Each of its
  fields is a simple function of the events since then (`recount`), and it has gone exactly
  if some event among them removed what the policy does not keep, at a clock reading at
  which the policy does not keep what the earlier events had made of it.

  The proof goes along the events since the registration, the last one split off: the
  recount of one more event is the recount before it, rewritten as the event rewrites every
  instance (`recount_append_singleton`).
-/
import Mathlib.Data.List.Induction
import ServiceRegistry.Proofs.Inventory.WellFormed

namespace ServiceRegistry.Inventory

/-! ## What events say about an instance -/

/-- The event asks for the removal of an instance, by its number or by its endpoint. -/
def Moment.names (m : Moment) (i : Instance) : Bool :=
  match m.action with
  | .retire id | .withdraw id => i.id == id
  | .withdrawPorts host ports => listensAt host ports i
  | _ => false

/-- The event notes this outcome of a probe of the instance with a number. -/
def Moment.probes (m : Moment) (id : InstanceId) (success : Bool) : Bool :=
  m.action == .noteProbe id success

/-- The clock reading of the last event with a property. -/
def lastReading? (p : Moment → Bool) (since : List Moment) : Option UInt64 :=
  (since.reverse.find? p).map (·.now)

/-- The number of failed probes after the last successful one. -/
def failuresIn (id : InstanceId) (since : List Moment) : Nat :=
  (since.reverse.takeWhile (!·.probes id true)).countP (·.probes id false)

/-- The state of a newly registered instance after the events since its registration. -/
def recount (policy : Policy) (new : Instance) (since : List Moment) : Instance :=
  { new with
    disabled := since.any (·.names new)
    lastSuccess := (lastReading? (·.probes new.id true) since).getD new.firstRegistered
    lastRefresh := (lastReading? (·.returns policy new.id) since).getD new.firstRegistered
    failures := UInt32.ofNat (min (UInt32.size - 1) (failuresIn new.id since)) }

/-- Some event removed what the policy does not keep when it did not keep the instance. -/
def Dismissed (policy : Policy) (new : Instance) (since : List Moment) : Prop :=
  ∃ earlier m later, since = earlier ++ m :: later ∧ m.sweeps policy = true ∧
    policy.verdict? (recount policy new (earlier ++ [m])) m.now ≠ none

/-! ## One more event -/

section

variable (p : Moment → Bool) (since : List Moment) (m : Moment)

theorem lastReading?_append_singleton :
    lastReading? p (since ++ [m]) = if p m then some m.now else lastReading? p since := by
  simp only [lastReading?, List.reverse_append, List.reverse_singleton, List.singleton_append,
    List.find?_cons]
  cases p m <;> rfl

theorem failuresIn_append_singleton (id : InstanceId) :
    failuresIn id (since ++ [m]) = if m.probes id true then 0
      else failuresIn id since + if m.probes id false then 1 else 0 := by
  simp only [failuresIn, List.reverse_append, List.reverse_singleton, List.singleton_append,
    List.takeWhile_cons]
  cases m.probes id true with
  | true => rfl
  | false => simp only [Bool.not_false, if_true, List.countP_cons, Bool.false_eq_true, if_false]

end

/-- The count of failures stops at its limit, as the recount does. -/
theorem failed_failures {i : Instance} {n : Nat}
    (h : i.failures = UInt32.ofNat (min (UInt32.size - 1) n)) :
    i.failed.failures = UInt32.ofNat (min (UInt32.size - 1) (n + 1)) := by
  have hsize : UInt32.size = 4294967296 := rfl
  show (if i.failures = UInt32.ofNat (UInt32.size - 1) then i.failures else i.failures + 1) = _
  -- At the limit neither side moves; below it the sum does not wrap around.
  by_cases hfull : UInt32.size - 1 ≤ n
  · have hmin : min (UInt32.size - 1) n = UInt32.size - 1 := Nat.min_eq_left hfull
    have hmin' : min (UInt32.size - 1) (n + 1) = UInt32.size - 1 := Nat.min_eq_left (by omega)
    rw [hmin] at h
    rw [if_pos h, hmin', h]
  · have hmin : min (UInt32.size - 1) n = n := Nat.min_eq_right (by omega)
    have hmin' : min (UInt32.size - 1) (n + 1) = n + 1 := Nat.min_eq_right (by omega)
    rw [hmin] at h
    have hne : i.failures ≠ UInt32.ofNat (UInt32.size - 1) := by
      intro heq
      have hnat := congrArg UInt32.toNat (h.symm.trans heq)
      rw [UInt32.toNat_ofNat_of_lt' (by omega), UInt32.toNat_ofNat_of_lt' (by omega)] at hnat
      omega
    rw [if_neg hne, hmin', h, UInt32.ofNat_add]
    rfl

section

variable {policy : Policy} {m : Moment}

theorem returns_eq_false (h : ∀ service endpoint capabilities,
    m.action ≠ .enrol service endpoint capabilities) (id : InstanceId) :
    m.returns policy id = false := by
  cases henrolment : (m.answer policy).enrolment? with
  | none => simp only [Moment.returns, henrolment, Option.any_none]
  | some r =>
    obtain ⟨service, endpoint, capabilities, haction⟩ :=
      Moment.exists_enrol_of_enrolment? henrolment
    exact absurd haction (h service endpoint capabilities)

theorem probes_eq_false (h : ∀ id success, m.action ≠ .noteProbe id success) (id : InstanceId)
    (success : Bool) : m.probes id success = false := by
  simp only [Moment.probes, beq_eq_false_iff_ne]
  exact h id success

theorem any_names_append_singleton (new : Instance) (since : List Moment) :
    (since ++ [m]).any (·.names new) = (since.any (·.names new) || m.names new) := by
  simp only [List.any_append, List.any_cons, List.any_nil, Bool.or_false]

variable {new : Instance} (since : List Moment)

/-- An event that does not concern the instance leaves the recount as it is. -/
theorem recount_of_silent (hnames : m.names new = false)
    (hreturns : m.returns policy new.id = false)
    (hprobes : ∀ success, m.probes new.id success = false) :
    recount policy new (since ++ [m]) = recount policy new since := by
  simp only [recount, any_names_append_singleton, lastReading?_append_singleton,
    failuresIn_append_singleton, hnames, hreturns, hprobes, Bool.or_false, Bool.false_eq_true,
    if_false, Nat.add_zero]

theorem recount_of_names (hnames : m.names new = true)
    (hreturns : m.returns policy new.id = false)
    (hprobes : ∀ success, m.probes new.id success = false) :
    recount policy new (since ++ [m]) = (recount policy new since).hidden := by
  simp only [recount, Instance.hidden, any_names_append_singleton,
    lastReading?_append_singleton, failuresIn_append_singleton, hnames, hreturns, hprobes,
    Bool.or_true, Bool.false_eq_true, if_false, Nat.add_zero]

/-- Events that are neither registrations nor probes hide the instances they name. -/
theorem recount_of_removal (henrol : ∀ service endpoint capabilities,
      m.action ≠ .enrol service endpoint capabilities)
    (hnote : ∀ id success, m.action ≠ .noteProbe id success) :
    recount policy new (since ++ [m]) =
      if m.names new then (recount policy new since).hidden else recount policy new since := by
  have hreturns : m.returns policy new.id = false := returns_eq_false henrol new.id
  have hprobes := probes_eq_false hnote new.id
  by_cases hnames : m.names new = true
  · rw [if_pos hnames]
    exact recount_of_names since hnames hreturns hprobes
  · rw [if_neg hnames]
    exact recount_of_silent since (by simpa using hnames) hreturns hprobes

theorem recount_of_returns (hnames : m.names new = false)
    (hreturns : m.returns policy new.id = true)
    (hprobes : ∀ success, m.probes new.id success = false) :
    recount policy new (since ++ [m]) = (recount policy new since).refreshed m.now := by
  simp only [recount, Instance.refreshed, any_names_append_singleton,
    lastReading?_append_singleton, failuresIn_append_singleton, hnames, hreturns, hprobes,
    Bool.or_false, if_true, Bool.false_eq_true, if_false, Nat.add_zero, Option.getD_some]

theorem recount_of_probe {success : Bool} (haction : m.action = .noteProbe new.id success) :
    recount policy new (since ++ [m]) = (recount policy new since).probed success m.now := by
  have hnames : m.names new = false := by simp only [Moment.names, haction]
  have hreturns : m.returns policy new.id = false :=
    returns_eq_false (by intro _ _ _; simp only [haction, ne_eq, reduceCtorEq, not_false_eq_true]) _
  cases success with
  | true =>
    -- A success begins the count of failures anew.
    have hprobes : m.probes new.id true = true := by simp only [Moment.probes, haction, BEq.rfl]
    simp only [recount, Instance.probed, Instance.succeeded, any_names_append_singleton,
      lastReading?_append_singleton, failuresIn_append_singleton, hnames, hreturns, hprobes,
      Bool.or_false, if_true, Bool.false_eq_true, if_false, Option.getD_some, Nat.min_zero]
    rfl
  | false =>
    -- A failure adds one to the count, up to its limit, and sets no reading.
    have hprobes : m.probes new.id false = true := by simp only [Moment.probes, haction, BEq.rfl]
    have hsuccess : m.probes new.id true = false := by
      simp only [Moment.probes, haction, beq_eq_false_iff_ne, ne_eq, Action.noteProbe.injEq,
        Bool.false_eq_true, and_false, not_false_eq_true]
    have hfailures := failed_failures (i := recount policy new since) rfl
    simp only [Instance.probed, Bool.false_eq_true, if_false]
    simp only [Instance.failed] at hfailures ⊢
    rw [hfailures]
    simp only [recount, any_names_append_singleton, lastReading?_append_singleton,
      failuresIn_append_singleton, hnames, hreturns, hprobes, hsuccess, Bool.or_false, if_true,
      Bool.false_eq_true, if_false]

/-- One more event rewrites the recount as it rewrites every instance. -/
theorem recount_append_singleton (new : Instance) (since : List Moment) :
    recount policy new (since ++ [m]) = m.touch policy (recount policy new since) := by
  have hid : (recount policy new since).id = new.id := rfl
  cases haction : m.action with
  | enrol service endpoint capabilities =>
    have hnames : m.names new = false := by simp only [Moment.names, haction]
    have hprobes : ∀ success, m.probes new.id success = false :=
      probes_eq_false (by simp [haction]) new.id
    simp only [Moment.touch, haction, hid]
    by_cases hreturns : m.returns policy new.id = true
    · rw [if_pos hreturns]
      exact recount_of_returns since hnames hreturns hprobes
    · rw [if_neg hreturns]
      exact recount_of_silent since hnames (by simpa using hreturns) hprobes
  | retire id =>
    rw [recount_of_removal since (by simp [haction]) (by simp [haction])]
    simp only [Moment.touch, Moment.names, haction, onlyAt, hid, beq_iff_eq]
  | withdraw id =>
    rw [recount_of_removal since (by simp [haction]) (by simp [haction])]
    simp only [Moment.touch, Moment.names, haction, onlyAt, hid, beq_iff_eq]
  | withdrawPorts host ports =>
    -- The endpoint is fixed by the registration, so the recount listens where `new` does.
    have hlistens : listensAt host ports (recount policy new since) = listensAt host ports new :=
      rfl
    rw [recount_of_removal since (by simp [haction]) (by simp [haction])]
    simp only [Moment.touch, Moment.names, haction, hlistens]
  | sweep =>
    rw [recount_of_removal since (by simp [haction]) (by simp [haction])]
    simp only [Moment.touch, Moment.names, haction, Bool.false_eq_true, if_false]
  | noteProbe id success =>
    simp only [Moment.touch, haction, onlyAt, hid]
    by_cases hnew : new.id = id
    · rw [if_pos hnew]
      exact recount_of_probe since (hnew ▸ haction)
    · -- A probe of another instance.
      have hreturns : m.returns policy new.id = false :=
        returns_eq_false (by simp [haction]) new.id
      have hprobes : ∀ success, m.probes new.id success = false := by
        intro other
        simp only [Moment.probes, haction, beq_eq_false_iff_ne, ne_eq, Action.noteProbe.injEq,
          not_and]
        exact fun hid => absurd hid.symm hnew
      rw [if_neg hnew]
      exact recount_of_silent since (by simp only [Moment.names, haction]) hreturns hprobes

end

/-! ## What is stored -/

/-- The instance `new` is stored as the recount of the events `since`, if it is stored, and
    it has gone exactly if one of them dismissed it. -/
structure Accounted (policy : Policy) (inv : Inventory) (new : Instance)
    (since : List Moment) : Prop where
  given : new.id ≤ inv.lastId
  value : ∀ s j, (s, j) ∈ inv.stored → j.id = new.id → j = recount policy new since
  gone : new.id ∉ inv.ids ↔ Dismissed policy new since

section

variable {policy : Policy} {m : Moment} {new : Instance} {since : List Moment}

theorem not_dismissed_nil : ¬ Dismissed policy new [] := by
  rintro ⟨earlier, m, later, heq, -⟩
  cases earlier <;> cases heq

theorem dismissed_append_singleton :
    Dismissed policy new (since ++ [m]) ↔ Dismissed policy new since ∨
      m.sweeps policy = true ∧
        policy.verdict? (recount policy new (since ++ [m])) m.now ≠ none := by
  constructor
  · rintro ⟨earlier, n, later, heq, hsweeps, hverdict⟩
    -- The dismissing event is the last one, or it is among the earlier ones.
    rcases List.eq_nil_or_concat later with rfl | ⟨later, k, rfl⟩
    · obtain ⟨rfl, hn⟩ := List.append_inj' heq rfl
      obtain rfl : m = n := List.singleton_inj.1 hn
      exact .inr ⟨hsweeps, hverdict⟩
    · left
      rw [List.concat_eq_append, ← List.cons_append, ← List.append_assoc] at heq
      exact ⟨earlier, n, later, (List.append_inj' heq rfl).1, hsweeps, hverdict⟩
  · rintro (⟨earlier, n, later, rfl, hsweeps, hverdict⟩ | ⟨hsweeps, hverdict⟩)
    · exact ⟨earlier, n, later ++ [m], by simp, hsweeps, hverdict⟩
    · exact ⟨since, m, [], rfl, hsweeps, hverdict⟩

/-- An event spares an instance unless it sweeps and the policy does not keep it. -/
theorem spares_eq_false_iff {i : Instance} : m.spares policy i = false ↔
    m.sweeps policy = true ∧ policy.verdict? i m.now ≠ none := by
  simp only [Moment.spares, Policy.keeps, Bool.or_eq_false_iff, Bool.not_eq_false',
    Option.isNone_eq_false_iff, Option.isSome_iff_ne_none]

/-- A creation does not concern the instances that were there. -/
theorem returns_eq_false_of_creates (hm : m.Sound policy) (hc : m.creates policy = true)
    {id : InstanceId} (hid : id ≤ m.met.lastId) : m.returns policy id = false := by
  obtain ⟨_, _, _, i, hcreation⟩ := Moment.creation_of_creates hc
  simp only [Moment.returns, hcreation.answer_eq, Answer.enrolment?, Option.any_some,
    hcreation.id_eq, beq_eq_false_iff_ne]
  rintro rfl
  rw [← hcreation.id_eq] at hid
  exact UInt64.lt_irrefl _ (UInt64.lt_of_le_of_lt hid (hm.lastId_lt hcreation))

theorem recount_of_creates (hm : m.Sound policy) (hc : m.creates policy = true)
    (hid : new.id ≤ m.met.lastId) :
    recount policy new (since ++ [m]) = recount policy new since := by
  obtain ⟨_, _, _, _, hcreation⟩ := Moment.creation_of_creates hc
  have hreturns := returns_eq_false_of_creates hm hc hid
  have hrecount : (recount policy new since).id = new.id := rfl
  rw [recount_append_singleton]
  simp only [Moment.touch, hcreation.action_eq, hrecount, hreturns, Bool.false_eq_true, if_false]

theorem Accounted.of_creates (h : Accounted policy m.met new since) (hm : m.Sound policy)
    (hc : m.creates policy = true) : Accounted policy (m.after policy) new (since ++ [m]) := by
  obtain ⟨_, _, _, i, hcreation⟩ := Moment.creation_of_creates hc
  have hne : i.id ≠ new.id := by
    intro heq
    have hlt := UInt64.lt_of_le_of_lt h.given (hm.lastId_lt hcreation)
    rw [heq] at hlt
    exact UInt64.lt_irrefl _ hlt
  refine ⟨UInt64.le_trans h.given hm.lastId_le, ?_, ?_⟩
  · intro s j hj hid
    rw [recount_of_creates hm hc h.given]
    rcases List.mem_cons.1 (hcreation.stored_perm.mem_iff.1 hj) with heq | hj
    · rw [(Prod.mk.inj heq).2] at hid
      exact absurd hid hne
    · exact h.value s j hj hid
  · -- A creation neither brings the number back nor sweeps.
    have hids : new.id ∈ (m.after policy).ids ↔ new.id ∈ m.met.ids := by
      rw [hcreation.ids_perm.mem_iff, List.mem_cons]
      exact or_iff_right (Ne.symm hne)
    have hsweeps : m.sweeps policy = false := by simp only [Moment.sweeps, hcreation.action_eq]
    rw [hids, dismissed_append_singleton, h.gone, hsweeps]
    simp only [Bool.false_eq_true, false_and, or_false]

theorem Accounted.of_not_creates (h : Accounted policy m.met new since) (hm : m.Sound policy)
    (hc : m.creates policy = false) : Accounted policy (m.after policy) new (since ++ [m]) := by
  have hstored : ∀ s j, (s, j) ∈ (m.after policy).stored ↔
      (∃ i, (s, i) ∈ m.met.stored ∧ m.touch policy i = j) ∧ m.spares policy j = true := by
    intro s j
    rw [Moment.after_eq hm.wellFormed.ids_nodup hc, mem_stored_retain, mem_stored_amend]
  have hid : ∀ i, (m.touch policy i).id = i.id :=
    fun i => (Moment.sameRegistration_touch policy m i).id_eq
  refine ⟨UInt64.le_trans h.given hm.lastId_le, ?_, ?_⟩
  · intro s j hj hnew
    obtain ⟨⟨i, hi, rfl⟩, -⟩ := (hstored s j).1 hj
    rw [recount_append_singleton, h.value s i hi ((hid i).symm.trans hnew)]
  · rw [dismissed_append_singleton, ← h.gone, ← spares_eq_false_iff]
    constructor
    · intro hgone
      by_cases hmem : new.id ∈ m.met.ids
      · -- It was stored as recounted, and only an event that does not spare it removes it.
        right
        obtain ⟨s, i, hi, heq⟩ := mem_ids.1 hmem
        have hvalue := h.value s i hi heq
        by_contra hspares
        have htouched : (s, recount policy new (since ++ [m])) ∈ (m.after policy).stored := by
          refine (hstored _ _).2 ⟨⟨i, hi, ?_⟩, by simpa using hspares⟩
          rw [recount_append_singleton, hvalue]
        have hstays : new.id ∈ (m.after policy).ids := mem_ids.2 ⟨s, _, htouched, rfl⟩
        exact hgone hstays
      · exact .inl hmem
    · -- What is stored now was stored before and has just been spared.
      intro hor hmem
      obtain ⟨s, j, hj, heq⟩ := mem_ids.1 hmem
      obtain ⟨⟨i, hi, rfl⟩, hspares⟩ := (hstored s j).1 hj
      have hnew : i.id = new.id := (hid i).symm.trans heq
      rcases hor with hgone | hgone
      · exact hgone (mem_ids.2 ⟨s, i, hi, hnew⟩)
      · rw [recount_append_singleton, ← h.value s i hi hnew, hspares] at hgone
        cases hgone

theorem Accounted.step (h : Accounted policy m.met new since) (hm : m.Sound policy) :
    Accounted policy (m.after policy) new (since ++ [m]) := by
  cases hc : m.creates policy with
  | true => exact h.of_creates hm hc
  | false => exact h.of_not_creates hm hc

theorem Accounted.run {inv : Inventory} {es : List Event} (h : Accounted policy inv new since)
    (hready : Ready policy inv es) :
    Accounted policy (after policy inv es) new (since ++ history policy inv es) := by
  -- The events recounted grow at the end while the run is taken apart from the front.
  induction es generalizing inv since with
  | nil =>
    rw [history, List.append_nil]
    exact h
  | cons e es ih =>
    have hhead : Accounted policy (Moment.mk e inv).met new since := h
    rw [history, List.append_cons]
    exact ih (hhead.step hready.head) hready.tail

/-- An instance just registered has no events to be recounted. -/
theorem Accounted.of_creation {service : Service} {endpoint : Endpoint}
    {capabilities : List Capability} (hm : m.Sound policy)
    (h : Moment.Creation policy m service endpoint capabilities new) :
    Accounted policy (m.after policy) new [] := by
  have hw := hm.wellFormed_after
  have hnew : (service.place m.met.services, new) ∈ (m.after policy).stored :=
    h.stored_perm.mem_iff.2 List.mem_cons_self
  refine ⟨(hw.ids_given _ (id_mem_ids hnew)).2, ?_, ?_⟩
  · intro t j hj hid
    obtain ⟨-, rfl⟩ := eq_of_id_eq hw.ids_nodup hj hnew hid
    rw [h.instance_eq]
    rfl
  · exact iff_of_false (fun hgone => hgone (id_mem_ids hnew)) not_dismissed_nil

end

/-! ## The account of an instance -/

/-- Whatever follows the creation of an instance, while it is stored each of its fields is
    the function of the later events that `recount` is. It has gone exactly if one of these
    events swept when the policy did not keep what the events up to it had made of it. -/
theorem account_of_created (policy : Policy) (before following : List Event) (e : Event)
    (i : Instance)
    (hcreated :
      ((Moment.mk e (after policy empty before)).answer policy).enrolment? = some ⟨i, true⟩)
    (hroom : creations policy empty (before ++ e :: following) < UInt64.size) :
    let inv := after policy empty (before ++ e :: following)
    let since := history policy (after policy empty (before ++ [e])) following
    (∀ s j, (s, j) ∈ inv.stored → j.id = i.id →
      j.endpoint = i.endpoint ∧ j.capabilities = i.capabilities ∧ j.firstRegistered = e.now ∧
      j.lastRefresh = (lastReading? (·.returns policy i.id) since).getD e.now ∧
      j.lastSuccess = (lastReading? (·.probes i.id true) since).getD e.now ∧
      j.failures.toNat = min (UInt32.size - 1) (failuresIn i.id since) ∧
      (j.disabled = true ↔ ∃ m ∈ since, m.names i = true)) ∧
    (i.id ∉ inv.ids ↔ ∃ earlier m later, since = earlier ++ m :: later ∧
      m.sweeps policy = true ∧
      policy.verdict? (recount policy i (earlier ++ [m])) m.now ≠ none) := by
  intro inv since
  have hready : Ready policy (after policy empty before) (e :: following) :=
    (ready_empty hroom).append_right
  obtain ⟨_, _, _, hcreation⟩ := Moment.creation_of_enrolment? hcreated
  have hnow : i.firstRegistered = e.now := by rw [hcreation.instance_eq]; rfl
  have hnext : after policy empty (before ++ [e])
      = (Moment.mk e (after policy empty before)).after policy :=
    after_append policy empty before [e]
  have hlast : inv = after policy (after policy empty (before ++ [e])) following := by
    show after policy empty (before ++ e :: following) = _
    rw [List.append_cons, after_append]
  -- The account begins right after the creation, with nothing to be recounted.
  have haccount : Accounted policy inv i since := by
    have hrun := (Accounted.of_creation hready.head hcreation).run hready.tail
    rw [← hnext, ← hlast, List.nil_append] at hrun
    exact hrun
  refine ⟨?_, haccount.gone⟩
  intro t j hj hid
  rw [haccount.value t j hj hid]
  refine ⟨rfl, rfl, hnow, by rw [← hnow]; rfl, by rw [← hnow]; rfl, ?_, ?_⟩
  · have hsize : UInt32.size = 4294967296 := rfl
    exact UInt32.toNat_ofNat_of_lt' (by omega)
  · show since.any (·.names i) = true ↔ _
    rw [List.any_eq_true]

/-- An instance that is probed, registered again, hidden and then swept away. -/
theorem account_of_created_hidden :
    let kv : Action := .enrol ⟨"kv", none⟩ ⟨"10.0.0.5", 9000⟩ [.status]
    let before : List Event := [⟨500, .enrol ⟨"web", none⟩ ⟨"10.0.0.5", 80⟩ [.tcp]⟩]
    let following : List Event := [⟨2000, .noteProbe 2 true⟩, ⟨3000, kv⟩,
      ⟨3500, .noteProbe 2 false⟩, ⟨4000, .retire 2⟩, ⟨5000, .sweep⟩]
    let i : Instance := .enrolled 2 ⟨"10.0.0.5", 9000⟩ [.status] 1000
    let since := history {} (after {} empty (before ++ [⟨1000, kv⟩])) following
    ((Moment.mk ⟨1000, kv⟩ (after {} empty before)).answer {}).enrolment? = some ⟨i, true⟩ ∧
      creations {} empty (before ++ ⟨1000, kv⟩ :: following) < UInt64.size ∧
      recount {} i (since.take 4)
        = { i with disabled := true, lastSuccess := 2000, lastRefresh := 3000, failures := 1 } ∧
      i.id ∉ (after {} empty (before ++ ⟨1000, kv⟩ :: following)).ids ∧
      ∃ earlier m later, since = earlier ++ m :: later ∧ m.sweeps {} = true ∧
        Policy.verdict? {} (recount {} i (earlier ++ [m])) m.now ≠ none := by
  intro kv before following i since
  have hcreated : ((Moment.mk ⟨1000, kv⟩ (after {} empty before)).answer {}).enrolment?
      = some ⟨i, true⟩ := by
    decide +kernel
  have hroom : creations {} empty (before ++ ⟨1000, kv⟩ :: following) < UInt64.size := by
    decide +kernel
  have habsent : i.id ∉ (after {} empty (before ++ ⟨1000, kv⟩ :: following)).ids := by
    decide +kernel
  obtain ⟨-, hgone⟩ := account_of_created {} before following ⟨1000, kv⟩ i hcreated hroom
  exact ⟨hcreated, hroom, by decide +kernel, habsent, hgone.1 habsent⟩

end ServiceRegistry.Inventory
