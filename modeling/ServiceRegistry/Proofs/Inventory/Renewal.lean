/-
  ServiceRegistry.Proofs.Inventory.Renewal

  Registering an endpoint again. However much has happened since an endpoint of a service was
  registered, as long as its instance is stored another registration of it finds this instance
  and sets its time of refresh, and nothing else.

  Accepting is not transitive, so it is not plain that the first entry that accepts the service
  is still the one that did so before. It is, because entries only accumulate at the end: what
  comes first stays first, whatever is registered under the same name later.
-/
import ServiceRegistry.Proofs.Inventory.Identity

namespace ServiceRegistry.Inventory

/-- The first entry that accepts the service holds the instance with a number, at the
    endpoint. -/
def Houses (inv : Inventory) (service : Service) (endpoint : Endpoint) (id : InstanceId) : Prop :=
  ∃ e i, inv.entries.find? (·.service.accepts service) = some e ∧ i ∈ e.instances ∧
    i.endpoint = endpoint ∧ i.id = id

/-! ## Where an instance is found -/

theorem find?_append_cons_of_none {before : List Entry} {service : Service}
    (hbefore : ∀ d ∈ before, d.service.accepts service = false) (e : Entry) (after : List Entry)
    (haccepts : e.service.accepts service = true) :
    (before ++ e :: after).find? (·.service.accepts service) = some e := by
  have hnone : before.find? (·.service.accepts service) = none := by
    refine List.find?_eq_none.2 fun d hd => ?_
    rw [hbefore d hd]
    exact Bool.false_ne_true
  rw [List.find?_append, hnone, Option.none_or, List.find?_cons, haccepts]

/-- Wherever a registration has filed the instance, it is where the next one looks. -/
theorem Filed.houses {id : InstanceId} {service : Service} {endpoint : Endpoint}
    {capabilities : List Capability} {now : UInt64} {es fs : List Entry} {r : Enrolment}
    (h : Filed id service endpoint capabilities now es r fs) (last : InstanceId) :
    (Inventory.mk fs last).Houses service endpoint r.current.id := by
  cases h with
  | @refreshed before after e older newer i hbefore haccepts hinstances hendpoint =>
    have hfirst := find?_append_cons_of_none hbefore
      { e with instances := older ++ i.refreshed now :: newer } after haccepts
    refine ⟨_, i.refreshed now, hfirst, ?_, hendpoint, rfl⟩
    exact List.mem_append_right _ List.mem_cons_self
  | @joined before after e hbefore haccepts hfree =>
    let new := Instance.enrolled id endpoint capabilities now
    have hfirst := find?_append_cons_of_none hbefore
      { e with instances := e.instances ++ [new] } after haccepts
    refine ⟨_, new, hfirst, ?_, rfl, rfl⟩
    exact List.mem_append_right _ List.mem_cons_self
  | opened hnone =>
    let new := Instance.enrolled id endpoint capabilities now
    have hfirst := find?_append_cons_of_none hnone ⟨service, [new]⟩ [] service.accepts_self
    exact ⟨_, new, hfirst, List.mem_cons_self, rfl, rfl⟩

/-- Services accept themselves, so no two entries have the same one. -/
theorem WellFormed.eq_of_service_eq {inv : Inventory} (h : inv.WellFormed) {d e : Entry}
    (hd : d ∈ inv.entries) (he : e ∈ inv.entries) (hservice : d.service = e.service) : d = e := by
  have hnodup : (inv.entries.map (·.service)).Nodup := by
    refine h.services_apart.imp fun {s t} hapart heq => ?_
    rw [heq, Service.accepts_self] at hapart
    cases hapart
  exact List.inj_on_of_nodup_map hnodup hd he hservice

section

variable {policy : Policy} {service : Service} {endpoint : Endpoint} {id : InstanceId}

/-! ## It stays there -/

theorem find?_services {inv : Inventory} {e : Entry}
    (h : inv.entries.find? (·.service.accepts service) = some e) :
    inv.services.find? (·.accepts service) = some e.service := by
  rw [services, List.find?_map]
  exact congrArg (Option.map (·.service)) h

theorem Houses.id_mem {inv : Inventory} (h : inv.Houses service endpoint id) :
    id ∈ inv.ids := by
  obtain ⟨e, i, hfirst, hi, -, rfl⟩ := h
  exact id_mem_ids (mem_stored.2 ⟨e, List.mem_of_find?_eq_some hfirst, rfl, hi⟩)

/-- Nothing moves an instance to where a registration would not find it. -/
theorem Houses.run {inv : Inventory} {es : List Event} (h : inv.Houses service endpoint id)
    (hready : Ready policy inv es) (hstored : id ∈ (after policy inv es).ids) :
    (after policy inv es).Houses service endpoint id := by
  obtain ⟨e, i, hfirst, hi, hendpoint, rfl⟩ := h
  have hmem : (e.service, i) ∈ inv.stored :=
    mem_stored.2 ⟨e, List.mem_of_find?_eq_some hfirst, rfl, hi⟩
  -- The number keeps its meaning, and the service keeps its place among the services.
  have hbears : (after policy inv es).Bears e.service i :=
    hready.after_induction (P := fun later => later.Bears e.service i)
      (bears_of_mem hready.wellFormed hmem) fun m hm hmet => Bears.after hmet hm
  have hplace : (after policy inv es).services.find? (·.accepts service) = some e.service :=
    hready.services_prefix.find?_eq_some (find?_services hfirst)
  obtain ⟨t, j, hj, hid⟩ := mem_ids.1 hstored
  obtain ⟨rfl, hsame⟩ := hbears.unique t j hj hid
  obtain ⟨d, hd, hservice, hjd⟩ := mem_stored.1 hj
  -- The first entry that accepts the service has the same service as the one with the
  -- instance, so it is the same entry.
  rw [services, List.find?_map] at hplace
  obtain ⟨f, hf, hfs⟩ := Option.map_eq_some_iff.1 hplace
  have hdf : d = f := hready.wellFormed_after.eq_of_service_eq hd
    (List.mem_of_find?_eq_some hf) (hservice.trans hfs.symm)
  subst hdf
  exact ⟨d, j, hf, hjd, hsame.endpoint_eq.trans hendpoint, hid⟩

/-! ## It is found again -/

/-- A registration that looks where the instance is refreshes it. -/
theorem Filed.of_houses {capabilities : List Capability} {now : UInt64} {next : InstanceId}
    {es fs : List Entry} {r : Enrolment}
    (hfiled : Filed next service endpoint capabilities now es r fs) (last : InstanceId)
    (h : (Inventory.mk es last).Houses service endpoint id)
    (hw : (Inventory.mk es last).WellFormed) :
    ∃ s i, (s, i) ∈ (Inventory.mk es last).stored ∧ i.id = id ∧
      r = ⟨i.refreshed now, false⟩ ∧ Replaced i (i.refreshed now) es fs := by
  obtain ⟨e, i, hfirst, hi, hendpoint, rfl⟩ := h
  have he : e ∈ es := List.mem_of_find?_eq_some hfirst
  refine ⟨e.service, i, mem_stored.2 ⟨e, he, rfl, hi⟩, rfl, ?_⟩
  cases hfiled with
  | @refreshed before after d older newer j hbefore haccepts hinstances hj =>
    -- The entry looked at is the one with the instance, and endpoints are distinct in it.
    have hde : d = e := by
      rw [find?_append_cons_of_none hbefore _ _ haccepts] at hfirst
      exact Option.some.inj hfirst
    subst hde
    have hjd : j ∈ d.instances := by
      rw [hinstances]
      exact List.mem_append_right _ List.mem_cons_self
    have hji : j = i :=
      List.inj_on_of_nodup_map (hw.endpoints_nodup d he) hjd hi (hj.trans hendpoint.symm)
    subst hji
    exact ⟨rfl, before, d, after, older, newer, hinstances, rfl, rfl⟩
  | @joined before after d hbefore haccepts hfree =>
    have hde : d = e := by
      rw [find?_append_cons_of_none hbefore _ _ haccepts] at hfirst
      exact Option.some.inj hfirst
    subst hde
    exact absurd hendpoint (hfree i hi)
  | opened hnone =>
    have haccepts := List.find?_some hfirst
    rw [hnone e he] at haccepts
    cases haccepts

/-- Registering what is there answers with it and changes its time of refresh alone. -/
theorem Houses.enrol (policy : Policy) {m : Moment} {capabilities : List Capability}
    (h : m.met.Houses service endpoint id) (hw : m.met.WellFormed) (hname : service.name ≠ "")
    (haction : m.action = .enrol service endpoint capabilities) :
    (∃ s i, (s, i) ∈ m.met.stored ∧ i.id = id ∧
      m.answer policy = .enrolled (.ok ⟨i.refreshed m.now, false⟩)) ∧
    m.after policy = m.met.amend (onlyAt id (·.refreshed m.now)) := by
  rcases Moment.enrol_cases policy haction with ⟨hempty, -, -⟩ | ⟨r, fs, -, hfiled, hanswer, hafter⟩
  · exact absurd hempty hname
  · obtain ⟨s, i, hi, hid, rfl, hreplaced⟩ := hfiled.of_houses m.met.lastId h hw
    refine ⟨⟨s, i, hi, hid, hanswer⟩, ?_⟩
    rw [hafter, ← hid]
    exact hreplaced.eq_amend hw.ids_nodup

end

/-- An endpoint that was registered before, and whose instance is still stored, is registered
    again: the answer shows the instance with the same number and is no creation, and the
    inventory differs in nothing but the time of refresh of this instance. What happened in
    between does not matter, since the entry that a service is filed in stays the same once
    there is one. -/
theorem enrol_again (policy : Policy) (before between : List Event) (first again : Event)
    (service : Service) (endpoint : Endpoint) (capabilities others : List Capability)
    (r : Enrolment)
    (hfirst : first.action = .enrol service endpoint capabilities)
    (hanswer : (Moment.mk first (after policy empty before)).answer policy = .enrolled (.ok r))
    (hroom : creations policy empty (before ++ first :: between) < UInt64.size)
    (hstored : r.current.id ∈ (after policy empty (before ++ first :: between)).ids)
    (hagain : again.action = .enrol service endpoint others) :
    let inv := after policy empty (before ++ first :: between)
    let m : Moment := ⟨again, inv⟩
    (∃ s i, (s, i) ∈ inv.stored ∧ i.id = r.current.id ∧
      m.answer policy = .enrolled (.ok ⟨{ i with lastRefresh := again.now }, false⟩)) ∧
    m.after policy = { inv with
      entries := inv.entries.map fun e => { e with
        instances := e.instances.map fun i =>
          if i.id = r.current.id then { i with lastRefresh := again.now } else i } } ∧
    ∀ es more rest, before ++ first :: between = es ++ more ++ rest → ∀ d k,
      (after policy empty es).services.findIdx? (·.accepts d) = some k →
      (after policy empty (es ++ more)).services.findIdx? (·.accepts d) = some k := by
  intro inv m
  have hready := ready_empty hroom
  have hbefore : Ready policy (after policy empty before) (first :: between) :=
    hready.append_right
  have hw : inv.WellFormed := hready.wellFormed_after
  -- The first registration has filed the instance where the next one looks, and there it is.
  obtain ⟨hname, hhouses⟩ : service.name ≠ "" ∧
      ((Moment.mk first (after policy empty before)).after policy).Houses service endpoint
        r.current.id := by
    rcases Moment.enrol_cases policy (m := ⟨first, after policy empty before⟩) hfirst with
      ⟨-, hrefused, -⟩ | ⟨q, fs, hname, hfiled, hfiledAnswer, hafter⟩
    · rw [hrefused] at hanswer
      cases hanswer
    · rw [hfiledAnswer, Answer.enrolled.injEq, Except.ok.injEq] at hanswer
      subst hanswer
      rw [hafter]
      exact ⟨hname, hfiled.houses _⟩
  have hlast : inv = after policy
      ((Moment.mk first (after policy empty before)).after policy) between :=
    after_append policy empty before (first :: between)
  have hhoused : inv.Houses service endpoint r.current.id := by
    rw [hlast]
    refine hhouses.run hbefore.tail ?_
    rw [← hlast]
    exact hstored
  obtain ⟨hfound, hafter⟩ := hhoused.enrol policy (m := m) hw hname hagain
  refine ⟨hfound, hafter, ?_⟩
  intro es more rest hrun d k hk
  rw [hrun] at hready
  rw [after_append]
  exact hready.append_left.append_right.services_prefix.findIdx?_eq_some hk

/-- An endpoint registered again after its name has been registered without a deploy path and
    with others, and after its instance was hidden and its neighbour swept away. -/
theorem enrol_again_among_others :
    let at7 : Service := ⟨"kv", some "ns/g/kv/7"⟩
    let before : List Event := [⟨1000, .enrol ⟨"kv", some "ns/g/kv/8"⟩ ⟨"10.0.0.6", 9000⟩ [.tcp]⟩]
    let first : Event := ⟨2000, .enrol at7 ⟨"10.0.0.5", 9000⟩ [.status]⟩
    let between : List Event := [⟨3000, .enrol ⟨"kv", none⟩ ⟨"10.0.0.5", 9000⟩ [.tcp]⟩,
      ⟨4000, .enrol ⟨"kv", some "ns/g/kv/9"⟩ ⟨"10.0.0.5", 9000⟩ [.tcp]⟩, ⟨5000, .withdraw 1⟩,
      ⟨6000, .noteProbe 2 false⟩, ⟨7000, .retire 2⟩]
    let again : Event := ⟨8000, .enrol at7 ⟨"10.0.0.5", 9000⟩ [.grpc]⟩
    let inv := after {} empty (before ++ first :: between)
    2 ∈ inv.ids ∧ ∃ s i, (s, i) ∈ inv.stored ∧ i.id = 2 ∧
      (Moment.mk again inv).answer {}
        = .enrolled (.ok ⟨{ i with lastRefresh := 8000 }, false⟩) := by
  intro at7 before first between again inv
  let r : Enrolment := ⟨.enrolled 2 ⟨"10.0.0.5", 9000⟩ [.status] 2000, true⟩
  have hanswer : (Moment.mk first (after {} empty before)).answer {} = .enrolled (.ok r) := rfl
  have hroom : creations {} empty (before ++ first :: between) < UInt64.size := by
    decide +kernel
  have hstored : (2 : InstanceId) ∈ inv.ids := by decide +kernel
  obtain ⟨hfound, -, -⟩ := enrol_again {} before between first again at7 ⟨"10.0.0.5", 9000⟩
    [.status] [.grpc] r rfl hanswer hroom hstored rfl
  exact ⟨hstored, hfound⟩

end ServiceRegistry.Inventory
