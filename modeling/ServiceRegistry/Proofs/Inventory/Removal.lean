/-
  ServiceRegistry.Proofs.Inventory.Removal

  What a removal has removed. The number withdrawn is spent afterwards, and nothing listens at
  the ports withdrawn but what is registered later.

  Where an instance was found and its number is spent, its endpoint is gone from the service
  as long as nothing is registered in between: an entry has one instance at an endpoint, so
  no other can take its place in what is shown (`Houses.vacated`).
-/
import ServiceRegistry.Proofs.Inventory.Batch
import ServiceRegistry.Proofs.Resolution

namespace ServiceRegistry.Inventory

/-! ## One removal -/

section

variable {policy : Policy} {inv inv' : Inventory} {now : UInt64}

/-- A number that was withdrawn is spent. -/
theorem spent_of_withdraw (hw : inv.WellFormed) {id : InstanceId} {evicted : List Eviction}
    (h : inv.withdraw policy id now = .ok (evicted, inv')) : inv'.Spent id := by
  by_cases hid : id ∈ inv.ids
  · obtain ⟨s, i, hi, rfl⟩ := mem_ids.1 hid
    rw [withdraw_of_mem hw.ids_nodup hi, sweep_eq] at h
    obtain ⟨-, rfl⟩ := Prod.mk.inj (Except.ok.inj h)
    refine ⟨(hw.ids_given _ hid).2, fun hmem => ?_⟩
    -- Whatever has the number has been hidden, and the sweep keeps nothing hidden.
    obtain ⟨t, j, hj, hji⟩ := mem_ids.1 hmem
    obtain ⟨hj, hkeeps⟩ := mem_stored_retain.1 hj
    obtain ⟨k, -, rfl⟩ := mem_stored_amend.1 hj
    have hki : k.id = i.id := by
      rw [← hji, (sameRegistration_onlyAt sameRegistration_hidden i.id k).id_eq]
    rw [onlyAt, if_pos hki, keeps_eq_false_of_hidden now rfl] at hkeeps
    cases hkeeps
  · rw [withdraw_of_not_mem hid] at h
    cases h

theorem listensAt_iff {host : String} {ports : List UInt16} {i : Instance} :
    listensAt host ports i = true ↔ i.endpoint.host = host ∧ i.endpoint.port ∈ ports := by
  simp only [listensAt, Bool.and_eq_true, beq_iff_eq, List.contains_iff_mem]

/-- Hiding and sweeping is leaving out, since no policy keeps what is hidden. -/
theorem filter_keeps_hidden (policy : Policy) (now : UInt64) (p : Instance → Bool)
    (is : List Instance) :
    (is.map fun i => if p i then i.hidden else i).filter (policy.keeps now)
      = is.filter fun i => !p i && policy.keeps now i := by
  induction is with
  | nil => rfl
  | cons i is ih =>
    rw [List.map_cons, List.filter_cons, List.filter_cons, ih]
    cases hp : p i with
    | true =>
      have hswept : policy.keeps now i.hidden = false := keeps_eq_false_of_hidden now rfl
      simp only [if_true, hswept, Bool.not_true, Bool.false_and, Bool.false_eq_true, if_false]
    | false => simp only [Bool.false_eq_true, if_false, Bool.not_false, Bool.true_and]

/-- What listens at the ports goes, and so does what the policy does not keep. -/
theorem withdrawPorts_eq_retain {host : String} {ports : List UInt16}
    (h : inv.anyListens host ports = true) :
    (inv.withdrawPorts policy host ports now).2
      = inv.retain fun i => !listensAt host ports i && policy.keeps now i := by
  rw [withdrawPorts_of_any h, sweep_eq]
  simp only [retain, amend, List.map_map, Function.comp_def, filter_keeps_hidden]

/-- Nothing listens any more where ports have been withdrawn. -/
theorem anyListens_withdrawPorts (policy : Policy) (inv : Inventory) (host : String)
    (ports : List UInt16) (now : UInt64) :
    (inv.withdrawPorts policy host ports now).2.anyListens host ports = false := by
  cases hany : inv.anyListens host ports with
  | false => rwa [withdrawPorts_of_none hany]
  | true =>
    rw [withdrawPorts_eq_retain hany, ← Bool.not_eq_true]
    intro hlistens
    obtain ⟨i, hi, hat⟩ := anyListens_iff.1 hlistens
    rw [retain_instances, List.mem_filter, hat, Bool.not_true, Bool.false_and] at hi
    exact Bool.false_ne_true hi.2

/-- What listens at some ports has been registered since a number was given. -/
structure ListensSince (host : String) (ports : List UInt16) (last : InstanceId)
    (inv : Inventory) : Prop where
  given : last ≤ inv.lastId
  since : ∀ i ∈ inv.instances, listensAt host ports i = true → last < i.id

theorem listensSince_withdrawPorts (policy : Policy) (inv : Inventory) (host : String)
    (ports : List UInt16) (now : UInt64) :
    ListensSince host ports inv.lastId (inv.withdrawPorts policy host ports now).2 where
  given := by
    cases hany : inv.anyListens host ports with
    | false =>
      rw [withdrawPorts_of_none hany]
      exact UInt64.le_refl _
    | true =>
      rw [withdrawPorts_of_any hany]
      exact UInt64.le_refl _
  since := by
    intro i hi hlistens
    have hany := anyListens_iff.2 ⟨i, hi, hlistens⟩
    rw [anyListens_withdrawPorts] at hany
    cases hany

theorem ListensSince.after {host : String} {ports : List UInt16} {last : InstanceId} {m : Moment}
    (h : ListensSince host ports last m.met) (hm : m.Sound policy) :
    ListensSince host ports last (m.after policy) where
  given := UInt64.le_trans h.given hm.lastId_le
  since := by
    intro j hj hlistens
    obtain ⟨s, hj⟩ := mem_instances.1 hj
    rcases hm.mem_stored hj with hlt | ⟨i, hi, hsame⟩
    · exact UInt64.lt_of_le_of_lt h.given hlt
    · -- The endpoint of an instance does not change.
      rw [hsame.id_eq]
      refine h.since i (mem_instances.2 ⟨s, hi⟩) ?_
      rwa [listensAt, ← hsame.endpoint_eq]

end

/-! ## Withdrawals one after the other -/

/-- The events withdraw the numbers, in order. -/
def Withdraws (ids : List InstanceId) (es : List Event) : Prop :=
  es.map (·.action) = ids.map .withdraw

section

variable {policy : Policy} {inv : Inventory} {m : Moment} {id : InstanceId}
variable {ids : List InstanceId} {e : Event} {es : List Event}

theorem Withdraws.cases (h : Withdraws (id :: ids) es) :
    ∃ e rest, es = e :: rest ∧ e.action = .withdraw id ∧ Withdraws ids rest := by
  cases es with
  | nil => cases h
  | cons e rest =>
    obtain ⟨haction, hrest⟩ := List.cons.inj h
    exact ⟨e, rest, rfl, haction, hrest⟩

theorem Withdraws.cons (haction : e.action = .withdraw id) (h : Withdraws ids es) :
    Withdraws (id :: ids) (e :: es) :=
  congrArg₂ List.cons haction h

theorem creates_of_withdraw (h : m.action = .withdraw id) : m.creates policy = false := by
  rw [Bool.eq_false_iff]
  intro hc
  obtain ⟨_, _, _, _, hcreation⟩ := Moment.creation_of_creates hc
  have hother := hcreation.action_eq.symm.trans h
  cases hother

theorem Withdraws.creations_eq (h : Withdraws ids es) (policy : Policy) (inv : Inventory) :
    creations policy inv es = 0 := by
  induction ids generalizing inv es with
  | nil =>
    rw [List.map_eq_nil_iff.1 h]
    rfl
  | cons id ids ih =>
    obtain ⟨e, rest, rfl, haction, hrest⟩ := h.cases
    rw [creations_cons, creates_of_withdraw haction, ih hrest]
    rfl

/-- Withdrawals take no numbers. -/
theorem Withdraws.ready (h : Withdraws ids es) (hw : inv.WellFormed) : Ready policy inv es where
  wellFormed := hw
  room := by
    rw [h.creations_eq]
    exact inv.lastId.toNat_lt_size

/-- A number that was given out is spent when it has been withdrawn, also if its instance was
    gone before. -/
theorem spent_after_withdraw (hw : m.met.WellFormed) (h : m.action = .withdraw id)
    (hgiven : id ≤ m.met.lastId) : (m.after policy).Spent id := by
  by_cases hid : id ∈ m.met.ids
  · obtain ⟨s, i, hi, rfl⟩ := mem_ids.1 hid
    have hwithdraw := withdraw_of_mem hw.ids_nodup hi policy m.now
    have hafter : m.after policy
        = ((m.met.amend (onlyAt i.id (·.hidden))).sweep policy m.now).2 := by
      simp only [Moment.after, Event.perform, h, hwithdraw, attempt]
    rw [hafter]
    exact spent_of_withdraw hw hwithdraw
  · have hafter : m.after policy = m.met := by
      simp only [Moment.after, Event.perform, h, withdraw_of_not_mem hid, attempt]
    rw [hafter]
    exact ⟨hgiven, hid⟩

theorem Withdraws.spent (h : Withdraws ids es) (hw : inv.WellFormed) (hid : id ∈ ids)
    (hgiven : id ≤ inv.lastId) : (after policy inv es).Spent id := by
  -- Up to the event that withdraws the number; from there on it stays spent.
  induction ids generalizing inv es with
  | nil => cases hid
  | cons other ids ih =>
    have hready : Ready policy inv es := h.ready hw
    obtain ⟨e, rest, rfl, haction, hrest⟩ := h.cases
    rcases List.mem_cons.1 hid with rfl | hid
    · have hspent : ((Moment.mk e inv).after policy).Spent id :=
        spent_after_withdraw (m := ⟨e, inv⟩) hw haction hgiven
      exact (hspent.run hready.tail).1
    · have hlast : inv.lastId ≤ ((Moment.mk e inv).after policy).lastId := hready.head.lastId_le
      have hlater := ih hrest hready.tail.wellFormed hid (UInt64.le_trans hgiven hlast)
      exact hlater

/-- What is stored after withdrawals was there before. -/
theorem Withdraws.mem_stored (h : Withdraws ids es) (hw : inv.WellFormed) {s : Service}
    {j : Instance} (hj : (s, j) ∈ (after policy inv es).stored) :
    ∃ i, (s, i) ∈ inv.stored ∧ SameRegistration i j := by
  induction ids generalizing inv es with
  | nil =>
    rw [List.map_eq_nil_iff.1 h] at hj
    exact ⟨j, hj, .refl j⟩
  | cons id ids ih =>
    have hready : Ready policy inv es := h.ready hw
    obtain ⟨e, rest, rfl, haction, hrest⟩ := h.cases
    obtain ⟨k, hk, hkj⟩ := ih hrest hready.tail.wellFormed hj
    obtain ⟨i, hi, hik⟩ := Moment.mem_stored_of_not_creates (m := ⟨e, inv⟩) hw
      (creates_of_withdraw haction) hk
    exact ⟨i, hi, hik.trans hkj⟩

end

/-! ## Endpoints -/

/-- Some list, some lookup or some query for targets shows an endpoint for a service. -/
def Shows (inv : Inventory) (service : Service) (endpoint : Endpoint) : Prop :=
  (∃ name, ∃ e ∈ inv.listing name, e.service = service ∧
    ∃ i ∈ e.instances, i.endpoint = endpoint) ∨
  (∃ asked, ∃ e ∈ inv.lookup asked, e.service = service ∧
    ∃ i ∈ e.instances, i.endpoint = endpoint) ∨
  ∃ query i, (service, i) ∈ inv.targets query ∧ i.endpoint = endpoint

section

variable {policy : Policy} {inv : Inventory} {service : Service} {endpoint : Endpoint}
variable {id : InstanceId} {ids : List InstanceId} {es : List Event}

/-- What is shown is stored. -/
theorem Shows.stored (h : inv.Shows service endpoint) :
    ∃ i, (service, i) ∈ inv.stored ∧ i.endpoint = endpoint := by
  have hvisible : ∀ d ∈ inv.entries, d.visible.service = service →
      ∀ i ∈ d.visible.instances, (service, i) ∈ inv.stored :=
    fun d hd hservice i hi => mem_stored.2 ⟨d, hd, hservice, (List.mem_filter.1 hi).1⟩
  rcases h with ⟨name, e, he, hservice, i, hi, hendpoint⟩ |
    ⟨asked, e, he, hservice, i, hi, hendpoint⟩ | ⟨query, i, hi, hendpoint⟩
  · obtain ⟨he, -⟩ := List.mem_filter.1 he
    obtain ⟨d, hd, rfl⟩ := List.mem_map.1 he
    exact ⟨i, hvisible d (List.mem_filter.1 hd).1 hservice i hi, hendpoint⟩
  · obtain ⟨d, hd, rfl⟩ := List.mem_map.1 he
    exact ⟨i, hvisible d (List.mem_filter.1 hd).1 hservice i hi, hendpoint⟩
  · exact ⟨i, (mem_targets.1 hi).1, hendpoint⟩

/-- When the instance that a registration would find has been withdrawn, its endpoint is shown
    no more for the service of the entry. -/
theorem Houses.vacated (h : inv.Houses service endpoint id) (hw : inv.WellFormed)
    (hes : Withdraws ids es) (hid : id ∈ ids) :
    ∃ e, inv.entries.find? (·.service.accepts service) = some e ∧
      (∃ i ∈ e.instances, i.endpoint = endpoint ∧ i.id = id) ∧
      ¬ (after policy inv es).Shows e.service endpoint := by
  have hgiven := (hw.ids_given id h.id_mem).2
  obtain ⟨e, i, hfirst, hi, hendpoint, rfl⟩ := h
  refine ⟨e, hfirst, ⟨i, hi, hendpoint, rfl⟩, fun hshows => ?_⟩
  obtain ⟨k, hk, hkendpoint⟩ := hshows.stored
  obtain ⟨j, hj, hjk⟩ := hes.mem_stored hw hk
  obtain ⟨d, hd, hservice, hjd⟩ := mem_stored.1 hj
  -- It was in the same entry and at the same endpoint, so it is the instance withdrawn.
  have he := List.mem_of_find?_eq_some hfirst
  obtain rfl := hw.eq_of_service_eq hd he hservice
  have hji : j = i := List.inj_on_of_nodup_map (hw.endpoints_nodup d he) hjd hi
    (hjk.endpoint_eq.symm.trans (hkendpoint.trans hendpoint.symm))
  subst hji
  have hspent : (after policy inv es).Spent j.id := hes.spent hw hid hgiven
  rw [← hjk.id_eq] at hspent
  exact hspent.gone (id_mem_ids hk)

end

end ServiceRegistry.Inventory
