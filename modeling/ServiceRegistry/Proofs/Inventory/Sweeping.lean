/-
  ServiceRegistry.Proofs.Inventory.Sweeping

  Removals lose nothing. A sweep parts what is stored into what the policy keeps and what it
  evicts, both in the order in which they were stored (`sweep_subjects`), and a removal by number
  or by ports is a sweep after the instances that are meant have been hidden.

  Time only counts against an instance, so what a policy does not keep at one time it does not
  keep at any later time (`Policy.keeps_of_le`). That is why an earlier sweep makes no difference
  to a later one.
-/
import ServiceRegistry.Proofs.Inventory.Evictions
import ServiceRegistry.Proofs.Inventory.Visibility
import ServiceRegistry.Proofs.Inventory.WellFormed

namespace ServiceRegistry

/-! ## Later is stricter -/

theorem elapsed_le_of_le {since now later : UInt64} (h : now ≤ later) :
    elapsed since now ≤ elapsed since later := by
  rw [UInt64.le_iff_toNat_le] at h ⊢
  rw [toNat_elapsed, toNat_elapsed]
  omega

/-- What is kept at a time would have been kept before. -/
theorem Policy.keeps_of_le {policy : Policy} {now later : UInt64} {i : Instance}
    (h : now ≤ later) (hkeeps : policy.keeps later i = true) : policy.keeps now i = true := by
  obtain ⟨hage, henabled, hfailures, hwindow⟩ := keeps_iff.1 hkeeps
  exact keeps_iff.2 ⟨UInt64.le_trans (elapsed_le_of_le h) hage, henabled, hfailures,
    fun hprobeable => UInt64.le_trans (elapsed_le_of_le h) (hwindow hprobeable)⟩

/-- What an eviction has removed, and of which service. -/
def Eviction.subject (ev : Eviction) : Service × Instance := (ev.service, ev.removed)

/-! ## What a sweep evicts -/

theorem Entry.evictions_subjects (e : Entry) (policy : Policy) (now : UInt64) :
    (e.evictions policy now).map (·.subject)
      = (e.instances.filter fun i => !policy.keeps now i).map fun i => (e.service, i) := by
  unfold Entry.evictions
  induction e.instances with
  | nil => rfl
  | cons i is ih =>
    rw [List.filterMap_cons, List.filter_cons, Policy.keeps]
    cases policy.verdict? i now with
    | none =>
      simpa only [Option.map_none, Option.isNone_none, Bool.not_true, Bool.false_eq_true,
        if_false] using ih
    | some reason =>
      simp only [Option.map_some, Option.isNone_some, Bool.not_false, if_true, List.map_cons, ih]
      rfl

namespace Inventory

section

variable {inv : Inventory} {policy : Policy} {now later : UInt64}

/-- A sweep evicts, in order, what the policy does not keep. -/
theorem sweep_subjects (inv : Inventory) (policy : Policy) (now : UInt64) :
    (inv.sweep policy now).1.map (·.subject)
      = inv.stored.filter fun p => !policy.keeps now p.2 := by
  simp only [sweep_eq, stored, List.map_flatMap, List.filter_flatMap, List.filter_map,
    Entry.evictions_subjects, Function.comp_def]

theorem conditionOf_of_mem_sweep (hn : inv.ids.Nodup) {ev : Eviction}
    (h : ev ∈ (inv.sweep policy now).1) :
    inv.conditionOf policy ev.removed.id now = some (.evicted ev.reason) := by
  rw [conditionOf, find?_of_mem hn (stored_of_mem_sweep h), Option.map_some,
    Policy.assess_eq_evicted.2 (verdict?_of_mem_sweep h)]

/-- No number is evicted twice. -/
theorem nodup_sweep_ids (hn : inv.ids.Nodup) :
    ((inv.sweep policy now).1.map (·.removed.id)).Nodup := by
  have hids : (inv.sweep policy now).1.map (·.removed.id)
      = (inv.stored.filter fun p => !policy.keeps now p.2).map (·.2.id) := by
    rw [← sweep_subjects, List.map_map]
    rfl
  rw [hids]
  refine List.Nodup.sublist (List.filter_sublist.map _) ?_
  rwa [stored_map_id]

theorem filter_eq_singleton {α β : Type} [DecidableEq β] {f : α → β} {l : List α} {a : α}
    (hn : (l.map f).Nodup) (ha : a ∈ l) : l.filter (fun x => f x == f a) = [a] := by
  obtain ⟨before, after, rfl⟩ := List.append_of_mem ha
  rw [List.map_append, List.map_cons, List.nodup_append, List.nodup_cons] at hn
  obtain ⟨-, ⟨hright, -⟩, hleft⟩ := hn
  have hbefore : before.filter (fun x => f x == f a) = [] := by
    refine List.filter_eq_nil_iff.2 fun x hx heq => ?_
    exact hleft (f x) (List.mem_map_of_mem hx) (f a) List.mem_cons_self (beq_iff_eq.1 heq)
  have hafter : after.filter (fun x => f x == f a) = [] := by
    refine List.filter_eq_nil_iff.2 fun x hx heq => hright ?_
    rw [← beq_iff_eq.1 heq]
    exact List.mem_map_of_mem hx
  have hself : (f a == f a) = true := beq_self_eq_true _
  rw [List.filter_append, List.filter_cons, if_pos hself, hbefore, hafter, List.nil_append]

/-- An instance that is swept while it is hidden is evicted once. -/
theorem evicted_once_of_hidden (hn : inv.ids.Nodup) {s : Service} {i : Instance}
    (hi : (s, i) ∈ inv.stored) (hidden : i.isVisible = false) :
    ∃ reason, (inv.sweep policy now).1.filter (·.removed.id == i.id) = [⟨s, i, reason⟩] := by
  have hmem : (s, i) ∈ (inv.sweep policy now).1.map (·.subject) := by
    rw [sweep_subjects, List.mem_filter, keeps_eq_false_of_hidden now hidden]
    exact ⟨hi, rfl⟩
  obtain ⟨ev, hev, heq⟩ := List.mem_map.1 hmem
  obtain ⟨rfl, rfl⟩ := Prod.mk.inj heq
  exact ⟨ev.reason, filter_eq_singleton (nodup_sweep_ids hn) hev⟩

/-! ## One sweep after another -/

theorem sweep_sweep (inv : Inventory) (policy : Policy) (h : now ≤ later) :
    ((inv.sweep policy now).2.sweep policy later).2 = (inv.sweep policy later).2 := by
  simp only [sweep_eq, retain_retain]
  congr 1
  funext i
  cases hlater : policy.keeps later i with
  | true => simp only [Policy.keeps_of_le h hlater, Bool.and_self]
  | false => rfl

theorem sweep_append_sweep (inv : Inventory) (policy : Policy) (h : now ≤ later) :
    (((inv.sweep policy now).1 ++ ((inv.sweep policy now).2.sweep policy later).1).map
        (·.subject)).Perm ((inv.sweep policy later).1.map (·.subject)) := by
  have hkept : (inv.sweep policy now).2 = inv.retain (policy.keeps now) := by rw [sweep_eq]
  rw [List.map_append, sweep_subjects, sweep_subjects, sweep_subjects, hkept, stored_retain,
    List.filter_filter]
  -- Of what the later sweep evicts alone, the first of the two takes what is late by then.
  have hfirst : inv.stored.filter (fun p => !policy.keeps now p.2)
      = (inv.stored.filter fun p => !policy.keeps later p.2).filter
          fun p => !policy.keeps now p.2 := by
    rw [List.filter_filter]
    refine List.filter_congr fun p _ => ?_
    cases hnow : policy.keeps now p.2 with
    | true => rfl
    | false =>
      have hlater : policy.keeps later p.2 = false := by
        rw [Bool.eq_false_iff]
        intro hlater
        rw [Policy.keeps_of_le h hlater] at hnow
        cases hnow
      rw [hlater, Bool.not_false, Bool.and_self]
  have hsecond : inv.stored.filter (fun p => !policy.keeps later p.2 && policy.keeps now p.2)
      = (inv.stored.filter fun p => !policy.keeps later p.2).filter
          fun p => policy.keeps now p.2 := by
    rw [List.filter_filter]
    exact List.filter_congr fun p _ => Bool.and_comm _ _
  rw [hfirst, hsecond]
  exact List.perm_append_comm.trans (List.filter_append_perm _ _)

/-! ## Hiding and sweeping -/

/-- Hides the instances with some numbers. -/
def hideAll (ids : List InstanceId) (i : Instance) : Instance := if i.id ∈ ids then i.hidden else i

theorem after_retire (hn : inv.ids.Nodup) (id : InstanceId) :
    (Moment.mk ⟨now, .retire id⟩ inv).after policy = inv.amend (onlyAt id (·.hidden)) := by
  by_cases hid : id ∈ inv.ids
  · obtain ⟨s, i, hi, rfl⟩ := mem_ids.1 hid
    simp only [Moment.after, Event.perform, retire_of_mem hn hi, attempt]
  · simp only [Moment.after, Event.perform, retire_of_not_mem hid, attempt,
      amend_onlyAt_of_not_mem _ hid]

/-- Hiding instances one by one is hiding them all at once. -/
theorem after_retirements (policy : Policy) (now : UInt64) (hn : inv.ids.Nodup)
    (ids : List InstanceId) :
    after policy inv (ids.map fun id => ⟨now, .retire id⟩) = inv.amend (hideAll ids) := by
  induction ids generalizing inv with
  | nil => exact (amend_eq_self fun i _ => if_neg List.not_mem_nil).symm
  | cons id ids ih =>
    have hsame : ∀ i, (onlyAt id (·.hidden) i).id = i.id :=
      fun i => (sameRegistration_onlyAt sameRegistration_hidden id i).id_eq
    have hnext : (inv.amend (onlyAt id (·.hidden))).ids.Nodup := by rwa [amend_ids hsame]
    rw [List.map_cons, after, after_retire hn, ih hnext, amend_amend]
    refine amend_congr fun i _ => ?_
    rw [hideAll, hideAll, hsame, onlyAt]
    by_cases hid : i.id = id
    · -- Hiding it once more makes no difference.
      rw [if_pos hid, if_pos (List.mem_cons.2 (.inl hid))]
      exact ite_self i.hidden
    · rw [if_neg hid]
      simp only [List.mem_cons, hid, false_or]

/-- What is named is evicted once, hidden, when it has been hidden and the rest is swept. -/
theorem evicted_once_of_named (hw : inv.WellFormed) {ids : List InstanceId} {s : Service}
    {i : Instance} (hi : (s, i) ∈ inv.stored) (hid : i.id ∈ ids) :
    ∃ reason, ((inv.amend (hideAll ids)).sweep policy now).1.filter (·.removed.id == i.id)
      = [⟨s, i.hidden, reason⟩] := by
  have hsame : ∀ j, SameRegistration j (hideAll ids j) := by
    intro j
    unfold hideAll
    split
    · exact sameRegistration_hidden j
    · exact .refl j
  have hstored : (s, i.hidden) ∈ (inv.amend (hideAll ids)).stored :=
    mem_stored_amend.2 ⟨i, hi, if_pos hid⟩
  exact evicted_once_of_hidden (hw.amend hsame).ids_nodup hstored rfl

theorem withdraw_eq (hw : inv.WellFormed) {s : Service} {i : Instance}
    (hi : (s, i) ∈ inv.stored) :
    inv.withdraw policy i.id now = .ok ((inv.amend (hideAll [i.id])).sweep policy now) := by
  rw [withdraw_of_mem hw.ids_nodup hi]
  have honly : onlyAt i.id (·.hidden) = hideAll [i.id] := by
    funext j
    simp only [onlyAt, hideAll, List.mem_singleton]
  rw [honly]

/-- The instances that listen on a host at one of some ports. -/
def listening (inv : Inventory) (host : String) (ports : List UInt16) :
    List (Service × Instance) :=
  inv.stored.filter fun p => listensAt host ports p.2

theorem withdrawPorts_eq (hw : inv.WellFormed) {host : String} {ports : List UInt16}
    (h : inv.listening host ports ≠ []) :
    inv.withdrawPorts policy host ports now
      = (inv.amend (hideAll ((inv.listening host ports).map (·.2.id)))).sweep policy now := by
  have hany : inv.anyListens host ports = true := by
    obtain ⟨p, hp⟩ := List.exists_mem_of_ne_nil _ h
    obtain ⟨hp, hlistens⟩ := List.mem_filter.1 hp
    exact anyListens_iff.2 ⟨p.2, mem_instances.2 ⟨p.1, hp⟩, hlistens⟩
  rw [withdrawPorts_of_any hany]
  congr 1
  refine amend_congr fun i hi => ?_
  obtain ⟨s, hi⟩ := mem_instances.1 hi
  -- No other instance has the number of one that listens.
  have hnamed : i.id ∈ (inv.listening host ports).map (·.2.id) ↔ listensAt host ports i = true := by
    constructor
    · intro hmem
      obtain ⟨⟨t, j⟩, hj, hid⟩ := List.mem_map.1 hmem
      obtain ⟨hj, hlistens⟩ := List.mem_filter.1 hj
      obtain ⟨-, rfl⟩ := eq_of_id_eq hw.ids_nodup hj hi hid
      exact hlistens
    · intro hlistens
      exact List.mem_map.2 ⟨(s, i), List.mem_filter.2 ⟨hi, hlistens⟩, rfl⟩
  rw [hideAll]
  by_cases hlistens : listensAt host ports i = true
  · rw [if_pos hlistens, if_pos (hnamed.2 hlistens)]
  · rw [if_neg hlistens, if_neg (mt hnamed.1 hlistens)]

theorem withdrawPorts_of_none_listening {host : String} {ports : List UInt16}
    (h : inv.listening host ports = []) :
    inv.withdrawPorts policy host ports now = ([], inv) := by
  refine withdrawPorts_of_none ?_ policy now
  rw [← Bool.not_eq_true]
  intro hany
  obtain ⟨i, hi, hlistens⟩ := anyListens_iff.1 hany
  obtain ⟨s, hi⟩ := mem_instances.1 hi
  exact List.filter_eq_nil_iff.1 h (s, i) hi hlistens

end

/-! ## Removals -/

/-- In every inventory that a run leads to:

    A sweep leaves in each entry what the policy keeps and evicts the rest, each in its order; an
    eviction names the service of the entry and the reason that would have been given for the
    instance just before. Entries and the last number stay.

    A removal by number is refused if nothing has the number, and a removal by ports that meets
    nothing changes nothing. Otherwise both hide the instances that are meant, and no others, and
    sweep, and each instance that is meant is evicted exactly once.

    A sweep between which and a later one nothing happens makes no difference to what is there
    after the later one, and the two together evict what the later one alone evicts. -/
theorem removals_lossless (policy : Policy) (before : List Event)
    (h : creations policy empty before < UInt64.size) :
    let inv := after policy empty before
    (∀ now,
      (inv.sweep policy now).2.services = inv.services ∧
      (inv.sweep policy now).2.lastId = inv.lastId ∧
      (inv.sweep policy now).2.entries.map (·.instances)
        = inv.entries.map (fun e => e.instances.filter (policy.keeps now)) ∧
      (inv.sweep policy now).1.map (·.subject)
        = inv.stored.filter (fun p => !policy.keeps now p.2) ∧
      ∀ ev ∈ (inv.sweep policy now).1,
        inv.conditionOf policy ev.removed.id now = some (.evicted ev.reason)) ∧
    (∀ now id,
      (id ∉ inv.ids ∧ inv.withdraw policy id now = .error (.instanceNotFound id)) ∨
      ∃ evicted swept s i, (s, i) ∈ inv.stored ∧ i.id = id ∧
        inv.withdraw policy id now = .ok (evicted, swept) ∧
        (after policy inv [⟨now, .retire id⟩]).sweep policy now = (evicted, swept) ∧
        ∃ reason, evicted.filter (·.removed.id == id) = [⟨s, i.hidden, reason⟩]) ∧
    (∀ now host ports,
      (inv.listening host ports = [] ∧ inv.withdrawPorts policy host ports now = ([], inv)) ∨
      ∃ evicted swept, inv.withdrawPorts policy host ports now = (evicted, swept) ∧
        (after policy inv ((inv.listening host ports).map fun p => ⟨now, .retire p.2.id⟩)).sweep
          policy now = (evicted, swept) ∧
        ∀ s i, (s, i) ∈ inv.listening host ports →
          ∃ reason, evicted.filter (·.removed.id == i.id) = [⟨s, i.hidden, reason⟩]) ∧
    ∀ now later, now ≤ later →
      ((inv.sweep policy now).2.sweep policy later).2 = (inv.sweep policy later).2 ∧
      (((inv.sweep policy now).1 ++ ((inv.sweep policy now).2.sweep policy later).1).map
        (·.subject)).Perm ((inv.sweep policy later).1.map (·.subject)) := by
  intro inv
  have hw : inv.WellFormed := (ready_empty h).wellFormed_after
  refine ⟨fun now => ?_, fun now id => ?_, fun now host ports => ?_, fun now later hle => ?_⟩
  · refine ⟨?_, rfl, ?_, sweep_subjects inv policy now,
      fun ev hev => conditionOf_of_mem_sweep hw.ids_nodup hev⟩
    · rw [sweep_eq, retain_services]
    · simp only [sweep_eq, retain, List.map_map, Function.comp_def]
  · by_cases hid : id ∈ inv.ids
    · obtain ⟨s, i, hi, rfl⟩ := mem_ids.1 hid
      refine .inr ⟨_, _, s, i, hi, rfl, withdraw_eq hw hi, ?_,
        evicted_once_of_named hw hi (List.mem_singleton.2 rfl)⟩
      have hretired := after_retirements policy now hw.ids_nodup [i.id]
      rw [List.map_singleton] at hretired
      rw [hretired]
      rfl
    · exact .inl ⟨hid, withdraw_of_not_mem hid policy now⟩
  · by_cases hnone : inv.listening host ports = []
    · exact .inl ⟨hnone, withdrawPorts_of_none_listening hnone⟩
    · refine .inr ⟨_, _, withdrawPorts_eq hw hnone, ?_, fun s i hi => ?_⟩
      · rw [← after_retirements policy now hw.ids_nodup, List.map_map]
        rfl
      · have hstored : (s, i) ∈ inv.stored := (List.mem_filter.1 hi).1
        exact evicted_once_of_named hw hstored (List.mem_map.2 ⟨(s, i), hi, rfl⟩)
  · exact ⟨sweep_sweep inv policy hle, sweep_append_sweep inv policy hle⟩

/-- One instance has not been probed in time and another is withdrawn. A third has the port of
    the second on another host; it is stale some time later. -/
theorem removals_lossless_three :
    let kv : Service := ⟨"kv", none⟩
    let before : List Event := [⟨1000, .enrol kv ⟨"10.0.0.5", 9000⟩ [.status]⟩,
      ⟨1000, .enrol kv ⟨"10.0.0.6", 9000⟩ [.tcp]⟩,
      ⟨30000, .enrol ⟨"web", some "ns/g/web/1"⟩ ⟨"10.0.0.7", 9000⟩ [.tcp]⟩]
    let inv := after {} empty before
    let late : Instance := .enrolled 1 ⟨"10.0.0.5", 9000⟩ [.status] 1000
    let hidden : Instance := (Instance.enrolled 2 ⟨"10.0.0.6", 9000⟩ [.tcp] 1000).hidden
    creations {} empty before < UInt64.size ∧
      (inv.sweep {} 40000).1.map (·.subject) = [(kv, late)] ∧
      (∀ ev ∈ (inv.sweep {} 40000).1,
        inv.conditionOf {} ev.removed.id 40000 = some (.evicted ev.reason)) ∧
      (after {} inv [⟨40000, .retire 2⟩]).sweep {} 40000
        = inv.withdrawPorts {} "10.0.0.6" [9000, 443] 40000 ∧
      (inv.withdrawPorts {} "10.0.0.6" [9000, 443] 40000).1
        = [⟨kv, late, .noRecentSuccess⟩, ⟨kv, hidden, .disabled⟩] ∧
      ((inv.sweep {} 40000).2.sweep {} 300000).2 = (inv.sweep {} 300000).2 := by
  intro kv before inv late hidden
  have h : creations {} empty before < UInt64.size := by decide
  obtain ⟨hsweep, -, hports, habsorbs⟩ := removals_lossless {} before h
  obtain ⟨-, -, -, hsubjects, hreasons⟩ := hsweep 40000
  have hlistening : inv.listening "10.0.0.6" [9000, 443] = [(kv, .enrolled 2 ⟨"10.0.0.6", 9000⟩
      [.tcp] 1000)] := by decide
  rcases hports 40000 "10.0.0.6" [9000, 443] with ⟨hnone, -⟩ | ⟨evicted, swept, heq, hsame, -⟩
  · rw [hlistening] at hnone
    cases hnone
  · rw [hlistening] at hsame
    have hlate : inv.stored.filter (fun p => !({} : Policy).keeps 40000 p.2) = [(kv, late)] := by
      decide
    exact ⟨h, hsubjects.trans hlate, hreasons, hsame.trans heq.symm, by decide,
      (habsorbs 40000 300000 (by decide)).1⟩

end Inventory

end ServiceRegistry
