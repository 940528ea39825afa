/-
  ServiceRegistry.Proofs.Inventory.Candidates

  Who answers probes, and which changes leave that as it is. The scraper is told of the same
  instances as the prober, so what keeps the candidates keeps the groups as well:

    * a registration that answers with an instance that was there;
    * the outcome of a probe, whosever it is;
    * a sweep, or a removal by ports, that evicts nothing.

  None of this needs distinct numbers, so it holds of all inventories.
-/
import ServiceRegistry.Inventory.Views
import ServiceRegistry.Proofs.Inventory.Change
import ServiceRegistry.Proofs.Inventory.Registration
import ServiceRegistry.Proofs.Inventory.Visibility

namespace ServiceRegistry.Inventory

/-! ## Candidates -/

theorem mem_candidates {inv : Inventory} {c : Candidate} :
    c ∈ inv.candidates ↔ ∃ s i, (s, i) ∈ inv.stored ∧ i.isProbeable = true ∧
      i.isVisible = true ∧ c = ⟨i.id, s.name, i.endpoint⟩ := by
  simp only [candidates, List.mem_flatMap, List.mem_map, List.mem_filter, Bool.and_eq_true,
    mem_stored]
  constructor
  · rintro ⟨e, he, i, ⟨hi, hprobeable, hvisible⟩, rfl⟩
    exact ⟨e.service, i, ⟨e, he, rfl, hi⟩, hprobeable, hvisible, rfl⟩
  · rintro ⟨s, i, ⟨e, he, rfl, hi⟩, hprobeable, hvisible, rfl⟩
    exact ⟨e, he, i, ⟨hi, hprobeable, hvisible⟩, rfl⟩

theorem scrapeGroups_congr {inv inv' : Inventory} (h : inv'.candidates = inv.candidates) :
    inv'.scrapeGroups = inv.scrapeGroups := by
  simp only [scrapeGroups, h]

theorem SameRegistration.isProbeable_eq {i j : Instance} (h : SameRegistration i j) :
    j.isProbeable = i.isProbeable := by
  simp only [Instance.isProbeable, Instance.offers, h.capabilities_eq]

/-! ## Changes that leave them alone -/

theorem Replaced.stored {inv : Inventory} {i j : Instance} {fs : List Entry}
    (h : Replaced i j inv.entries fs) : ∃ s, (s, i) ∈ inv.stored := by
  obtain ⟨before, e, after, older, newer, hinstances, hentries, -⟩ := h
  refine ⟨e.service, mem_stored.2 ⟨e, ?_, rfl, ?_⟩⟩
  · rw [hentries]
    exact List.mem_append_right _ List.mem_cons_self
  · rw [hinstances]
    exact List.mem_append_right _ List.mem_cons_self

/-- An instance gives way to one that is probed just like it. -/
theorem Replaced.candidates_eq {i j : Instance} {es fs : List Entry} (h : Replaced i j es fs)
    (hsame : SameRegistration i j) (hvisible : j.isVisible = i.isVisible)
    (last last' : InstanceId) :
    (Inventory.mk fs last).candidates = (Inventory.mk es last').candidates := by
  obtain ⟨before, e, after, older, newer, hinstances, rfl, rfl⟩ := h
  -- Only the entry `e` differs, and in it the instance in the middle.
  simp only [candidates, List.flatMap_append, List.flatMap_cons, hinstances, List.filter_append,
    List.filter_cons, hsame.isProbeable_eq, hvisible]
  split
  · simp only [List.map_append, List.map_cons, hsame.id_eq, hsame.endpoint_eq]
  · rfl

theorem enrol_candidates {inv inv' : Inventory} {service : Service} {endpoint : Endpoint}
    {capabilities : List Capability} {now : UInt64} {r : Enrolment}
    (h : inv.enrol service endpoint capabilities now = .ok (r, inv')) (hr : r.created = false) :
    inv'.candidates = inv.candidates := by
  unfold Inventory.enrol at h
  split at h
  · cases h
  · -- Filed without a creation, so an instance was refreshed.
    obtain ⟨rfl, rfl⟩ := Prod.mk.inj (Except.ok.inj h)
    have hfiled : Filed (inv.lastId + 1) service endpoint capabilities now inv.entries _ _ :=
      filed_enrolAmong
    obtain ⟨i, -, hreplaced⟩ := hfiled.replaced hr
    exact hreplaced.candidates_eq (sameRegistration_refreshed i now) rfl _ _

/-- The outcome of a probe changes one instance, if any has the number. -/
theorem noteProbe_replaced {inv : Inventory} {id : InstanceId} (h : id ∈ inv.ids)
    (success : Bool) (now : UInt64) : ∃ s i, (s, i) ∈ inv.stored ∧ i.id = id ∧
      Replaced i (i.probed success now) inv.entries (inv.noteProbe id success now).2.entries ∧
      (inv.noteProbe id success now).2.lastId = inv.lastId := by
  obtain ⟨t, j, hj, hid⟩ := mem_ids.1 h
  cases hmodify : modifyAmong? id (·.probed success now) inv.entries with
  | none =>
    obtain ⟨e, he, -, hmem⟩ := mem_stored.1 hj
    exact absurd hid (modifyAmong?_eq_none hmodify e he j hmem)
  | some es =>
    obtain ⟨i, hi, hreplaced⟩ := modifyAmong?_eq_some hmodify
    obtain ⟨s, hs⟩ := hreplaced.stored
    cases hfind : inv.find? id with
    | none =>
      have hne := List.find?_eq_none.1 hfind i (mem_instances.2 ⟨s, hs⟩)
      simp [hi] at hne
    | some k =>
      have hnoted : (inv.noteProbe id success now).2 = { inv with entries := es } := by
        simp only [noteProbe, modify?, hfind, hmodify]
      refine ⟨s, i, hs, hi, ?_, ?_⟩
      · rw [hnoted]
        exact hreplaced
      · rw [hnoted]

theorem noteProbe_candidates (inv : Inventory) (id : InstanceId) (success : Bool)
    (now : UInt64) : (inv.noteProbe id success now).2.candidates = inv.candidates := by
  by_cases hmem : id ∈ inv.ids
  · obtain ⟨s, i, -, -, hreplaced, -⟩ := noteProbe_replaced hmem success now
    have hvisible : (i.probed success now).isVisible = i.isVisible := by
      cases success <;> rfl
    exact hreplaced.candidates_eq (sameRegistration_probed i success now) hvisible _ _
  · rw [noteProbe_of_not_mem hmem]

/-! ## Sweeps that evict nothing -/

theorem keeps_of_sweep_eq_nil {inv : Inventory} {policy : Policy} {now : UInt64}
    (h : (inv.sweep policy now).1 = []) {i : Instance} (hi : i ∈ inv.instances) :
    policy.keeps now i = true := by
  obtain ⟨e, he, hie⟩ := List.mem_flatMap.1 hi
  have hevictions : e.evictions policy now = [] := List.flatMap_eq_nil_iff.1 h e he
  have hverdict := List.filterMap_eq_nil_iff.1 hevictions i hie
  rw [Option.map_eq_none_iff] at hverdict
  rw [Policy.keeps, hverdict, Option.isNone_none]

theorem sweep_eq_self {inv : Inventory} {policy : Policy} {now : UInt64}
    (h : (inv.sweep policy now).1 = []) : (inv.sweep policy now).2 = inv := by
  rw [sweep_eq]
  exact retain_eq_self fun i hi => keeps_of_sweep_eq_nil h hi

/-- Whatever listens at the ports is hidden and swept, so if nothing was evicted then
    nothing listened there. -/
theorem withdrawPorts_eq_self {inv : Inventory} {policy : Policy} {host : String}
    {ports : List UInt16} {now : UInt64} (h : (inv.withdrawPorts policy host ports now).1 = []) :
    (inv.withdrawPorts policy host ports now).2 = inv := by
  cases hany : inv.anyListens host ports with
  | false => rw [withdrawPorts_of_none hany]
  | true =>
    rw [withdrawPorts_of_any hany] at h
    obtain ⟨i, hi, hlistens⟩ := anyListens_iff.1 hany
    have hmem : i.hidden ∈
        (inv.amend fun i => if listensAt host ports i then i.hidden else i).instances := by
      rw [amend_instances]
      exact List.mem_map.2 ⟨i, hi, if_pos hlistens⟩
    -- A sweep that evicts nothing keeps the instance just hidden, which no policy does.
    have hkeeps := keeps_of_sweep_eq_nil h hmem
    rw [keeps_eq_false_of_hidden now rfl] at hkeeps
    cases hkeeps

end ServiceRegistry.Inventory
