/-
  ServiceRegistry.Proofs.Inventory.Tidy

  What holds of an inventory at all times, whatever becomes of the numbers: endpoints are
  distinct within an entry, and no two entries accept each other's services. The last is the
  delicate part, since accepting is not transitive: a service without a deploy path is
  accepted by every entry of its name. It is kept because a registration opens an entry only
  where none accepts the service.

  When the numbers begin anew, an operation on a number may change another instance than the
  one that was meant. Even so it changes neither services nor endpoints, so none of this needs
  a bound on the number of creations.
-/
import ServiceRegistry.Proofs.Acceptance
import ServiceRegistry.Proofs.Inventory.Effect

namespace ServiceRegistry.Inventory

/-! ## The invariant -/

/-- The facts about services and endpoints that every event keeps. -/
structure Tidy (inv : Inventory) : Prop where
  /-- No two instances of an entry have an endpoint in common. -/
  endpoints_nodup : ∀ e ∈ inv.entries, (e.instances.map (·.endpoint)).Nodup
  /-- No entry accepts the service of another. -/
  services_apart : Service.Apart inv.services

theorem tidy_empty : empty.Tidy where
  endpoints_nodup := by intro e h; cases h
  services_apart := List.Pairwise.nil

/-! ## One operation keeps it -/

section

variable {inv inv' : Inventory}

theorem Tidy.amend (h : inv.Tidy) {f : Instance → Instance}
    (hf : ∀ i, (f i).endpoint = i.endpoint) : (inv.amend f).Tidy where
  endpoints_nodup := by
    intro e he
    obtain ⟨d, hd, rfl⟩ := List.mem_map.1 he
    have hmap : (d.instances.map f).map (·.endpoint) = d.instances.map (·.endpoint) := by
      simp only [List.map_map, Function.comp_def, hf]
    rw [hmap]
    exact h.endpoints_nodup d hd
  services_apart := by
    rw [amend_services]
    exact h.services_apart

theorem Tidy.retain (h : inv.Tidy) (p : Instance → Bool) : (inv.retain p).Tidy where
  endpoints_nodup := by
    intro e he
    obtain ⟨d, hd, rfl⟩ := List.mem_map.1 he
    exact (h.endpoints_nodup d hd).sublist (List.filter_sublist.map _)
  services_apart := by
    rw [retain_services]
    exact h.services_apart

theorem Tidy.replaced (h : inv.Tidy) {i j : Instance} (hj : j.endpoint = i.endpoint)
    (hreplaced : Replaced i j inv.entries inv'.entries) : inv'.Tidy := by
  obtain ⟨before, e, after, older, newer, hinstances, hentries, hentries'⟩ := hreplaced
  have hservices : inv'.services = inv.services := by
    simp only [services, hentries, hentries', List.map_append, List.map_cons]
  have hendpoints : (older ++ j :: newer).map (·.endpoint) = e.instances.map (·.endpoint) := by
    rw [hinstances, List.map_append, List.map_append, List.map_cons, List.map_cons, hj]
  have hmet := h.endpoints_nodup
  rw [hentries] at hmet
  refine ⟨fun d hd => ?_, by rw [hservices]; exact h.services_apart⟩
  rw [hentries'] at hd
  rcases List.mem_append.1 hd with hd | hd
  · exact hmet d (List.mem_append_left _ hd)
  · rcases List.mem_cons.1 hd with rfl | hd
    · rw [hendpoints]
      exact hmet e (List.mem_append_right _ List.mem_cons_self)
    · exact hmet d (List.mem_append_right _ (List.mem_cons_of_mem _ hd))

/-- A change of one instance that leaves its endpoint as it is. -/
theorem Tidy.modify (h : inv.Tidy) {id : InstanceId} {f : Instance → Instance}
    (hf : ∀ i, (f i).endpoint = i.endpoint) {i : Instance}
    (hmodify : inv.modify? id f = some (i, inv')) : inv'.Tidy := by
  unfold modify? at hmodify
  cases hfind : inv.find? id with
  | none => rw [hfind] at hmodify; cases hmodify
  | some old =>
    cases hamong : modifyAmong? id f inv.entries with
    | none => rw [hfind, hamong] at hmodify; cases hmodify
    | some es =>
      rw [hfind, hamong] at hmodify
      cases hmodify
      obtain ⟨j, -, hreplaced⟩ := modifyAmong?_eq_some hamong
      exact h.replaced (hf j) hreplaced

theorem Tidy.retire (h : inv.Tidy) {id : InstanceId} {i : Instance}
    (hretire : inv.retire id = .ok (i, inv')) : inv'.Tidy := by
  unfold Inventory.retire at hretire
  cases hmodify : inv.modify? id (·.hidden) with
  | none => rw [hmodify] at hretire; cases hretire
  | some r =>
    rw [hmodify] at hretire
    cases hretire
    exact h.modify (f := (·.hidden)) (fun _ => rfl) hmodify

end

/-! ## A registration keeps it -/

section

variable {id : InstanceId} {service : Service} {endpoint : Endpoint}
variable {capabilities : List Capability} {now : UInt64} {es fs : List Entry} {r : Enrolment}

theorem Filed.endpoints_nodup (h : Filed id service endpoint capabilities now es r fs)
    (hr : r.created = true) (hes : ∀ e ∈ es, (e.instances.map (·.endpoint)).Nodup) :
    ∀ e ∈ fs, (e.instances.map (·.endpoint)).Nodup := by
  cases h with
  | refreshed => cases hr
  | @joined before after e _ _ hfree =>
    intro d hd
    rcases List.mem_append.1 hd with hd | hd
    · exact hes d (List.mem_append_left _ hd)
    · rcases List.mem_cons.1 hd with rfl | hd
      · -- The endpoint was free in this entry; the other entries are as before.
        have he := hes e (List.mem_append_right _ List.mem_cons_self)
        rw [List.map_append, List.map_cons, List.map_nil, List.nodup_append]
        refine ⟨he, List.pairwise_singleton _ _, ?_⟩
        intro x hx y hy
        obtain ⟨i, hi, rfl⟩ := List.mem_map.1 hx
        rw [List.mem_singleton.1 hy]
        exact hfree i hi
      · exact hes d (List.mem_append_right _ (List.mem_cons_of_mem _ hd))
  | opened =>
    intro d hd
    rcases List.mem_append.1 hd with hd | hd
    · exact hes d hd
    · rw [List.mem_singleton.1 hd]
      exact List.pairwise_singleton _ _

/-- A registration opens an entry only where no entry accepts the service. -/
theorem Filed.services_apart (h : Filed id service endpoint capabilities now es r fs)
    (hes : Service.Apart (es.map (·.service))) : Service.Apart (fs.map (·.service)) := by
  rcases h.services_eq with heq | ⟨hnone, heq⟩
  · rw [heq]
    exact hes
  · rw [heq]
    refine List.pairwise_append.2 ⟨hes, List.pairwise_singleton _ _, ?_⟩
    intro s hs t ht
    obtain ⟨d, hd, rfl⟩ := List.mem_map.1 hs
    rw [List.mem_singleton.1 ht]
    exact hnone d hd

theorem Filed.tidy (h : Filed id service endpoint capabilities now es r fs)
    {last : InstanceId} (hes : (Inventory.mk es last).Tidy) (last' : InstanceId) :
    (Inventory.mk fs last').Tidy := by
  cases hr : r.created with
  | true => exact ⟨h.endpoints_nodup hr hes.endpoints_nodup, h.services_apart hes.services_apart⟩
  | false =>
    obtain ⟨i, -, hreplaced⟩ := h.replaced hr
    exact hes.replaced (i := i) (j := i.refreshed now) rfl hreplaced

end

/-! ## Every run keeps it -/

section

variable {policy : Policy} {m : Moment}

theorem Tidy.after_event (h : m.met.Tidy) : (m.after policy).Tidy := by
  cases haction : m.action with
  | enrol service endpoint capabilities =>
    rcases Moment.enrol_cases policy haction with ⟨-, -, hafter⟩ | ⟨r, fs, -, hfiled, -, hafter⟩
    · rw [hafter]
      exact h
    · rw [hafter]
      exact hfiled.tidy h _
  | retire id =>
    simp only [Moment.after, Event.perform, haction]
    cases hretire : m.met.retire id with
    | error e => exact h
    | ok r => exact h.retire hretire
  | withdraw id =>
    simp only [Moment.after, Event.perform, haction, withdraw]
    cases hretire : m.met.retire id with
    | error e => exact h
    | ok r =>
      simp only [Except.map, attempt, sweep_eq]
      exact (h.retire hretire).retain _
  | withdrawPorts host ports =>
    simp only [Moment.after, Event.perform, haction]
    cases hany : m.met.anyListens host ports with
    | false =>
      rw [withdrawPorts_of_none hany]
      exact h
    | true =>
      rw [withdrawPorts_of_any hany, sweep_eq]
      refine (h.amend fun i => ?_).retain _
      split <;> rfl
  | sweep =>
    simp only [Moment.after, Event.perform, haction, sweep_eq]
    exact h.retain _
  | noteProbe id success =>
    simp only [Moment.after, Event.perform, haction, noteProbe]
    cases hmodify : m.met.modify? id (·.probed success m.now) with
    | none => exact h
    | some r =>
      have hprobed : ∀ i : Instance, (i.probed success m.now).endpoint = i.endpoint :=
        fun i => (sameRegistration_probed i success m.now).endpoint_eq
      exact h.modify hprobed hmodify

theorem Tidy.after {inv : Inventory} (h : inv.Tidy) (es : List Event) :
    (Inventory.after policy inv es).Tidy := by
  induction es generalizing inv with
  | nil => exact h
  | cons e es ih => exact ih h.after_event

/-- However long a run is and whatever its numbers, it keeps endpoints and services apart. -/
theorem reachable_tidy (policy : Policy) (es : List Event) :
    (Inventory.after policy empty es).Tidy :=
  tidy_empty.after es

end

end ServiceRegistry.Inventory
