/-
  ServiceRegistry.Proofs.Inventory.WellFormed

  What holds of an inventory at all times: numbers are distinct and have been given out, and
  the inventory is tidy.

  Numbers are 64 bits wide, so this is said of runs that do not use them up.
-/
import ServiceRegistry.Inventory.Views
import ServiceRegistry.Proofs.Inventory.Tidy

namespace ServiceRegistry.Inventory

/-! ## The invariant -/

/-- The facts about an inventory that every event keeps. -/
structure WellFormed (inv : Inventory) : Prop where
  /-- No two instances have a number in common. -/
  ids_nodup : inv.ids.Nodup
  /-- Numbers begin at one, and none is beyond the last that was given. -/
  ids_given : ∀ id ∈ inv.ids, 1 ≤ id ∧ id ≤ inv.lastId
  /-- No two instances of an entry have an endpoint in common. -/
  endpoints_nodup : ∀ e ∈ inv.entries, (e.instances.map (·.endpoint)).Nodup
  /-- No entry accepts the service of another. -/
  services_apart : Service.Apart inv.services

theorem WellFormed.tidy {inv : Inventory} (h : inv.WellFormed) : inv.Tidy :=
  ⟨h.endpoints_nodup, h.services_apart⟩

theorem wellFormed_empty : empty.WellFormed where
  ids_nodup := List.nodup_nil
  ids_given := by intro id h; cases h
  endpoints_nodup := tidy_empty.endpoints_nodup
  services_apart := tidy_empty.services_apart

/-! ## Rewriting and leaving out keep it -/

theorem WellFormed.amend {inv : Inventory} (h : inv.WellFormed) {f : Instance → Instance}
    (hf : ∀ i, SameRegistration i (f i)) : (inv.amend f).WellFormed where
  ids_nodup := by
    rw [amend_ids fun i => (hf i).id_eq]
    exact h.ids_nodup
  ids_given := by
    rw [amend_ids fun i => (hf i).id_eq]
    exact h.ids_given
  endpoints_nodup := (h.tidy.amend fun i => (hf i).endpoint_eq).endpoints_nodup
  services_apart := (h.tidy.amend fun i => (hf i).endpoint_eq).services_apart

theorem WellFormed.retain {inv : Inventory} (h : inv.WellFormed) (p : Instance → Bool) :
    (inv.retain p).WellFormed where
  ids_nodup := h.ids_nodup.sublist (retain_ids_sublist inv p)
  ids_given := fun id hid => h.ids_given id ((retain_ids_sublist inv p).subset hid)
  endpoints_nodup := (h.tidy.retain p).endpoints_nodup
  services_apart := (h.tidy.retain p).services_apart

/-! ## A creation keeps it -/

theorem toNat_succ {n : UInt64} (h : n.toNat + 1 < UInt64.size) :
    (n + 1).toNat = n.toNat + 1 := by
  rw [UInt64.toNat_add]
  exact Nat.mod_eq_of_lt h

/-- The next number is new. If the numbers are used up it is zero, which is never given. -/
theorem WellFormed.next_not_mem_ids {inv : Inventory} (h : inv.WellFormed) :
    inv.lastId + 1 ∉ inv.ids := by
  intro hmem
  obtain ⟨hpos, hle⟩ := h.ids_given _ hmem
  rw [UInt64.le_iff_toNat_le] at hpos hle
  by_cases hroom : inv.lastId.toNat + 1 < UInt64.size
  · rw [toNat_succ hroom] at hle
    omega
  · -- The sum wraps around.
    have hfull : inv.lastId.toNat + 1 = UInt64.size :=
      Nat.le_antisymm inv.lastId.toNat_lt_size (Nat.le_of_not_lt hroom)
    have hzero : (inv.lastId + 1).toNat = 0 := by
      rw [UInt64.toNat_add]
      show (inv.lastId.toNat + 1) % UInt64.size = 0
      rw [hfull, Nat.mod_self]
    rw [hzero] at hpos
    exact absurd hpos (by decide)

variable {policy : Policy} {m : Moment}

theorem WellFormed.of_creates (hw : m.met.WellFormed) (hc : m.creates policy = true)
    (hroom : m.met.lastId.toNat + 1 < UInt64.size) : (m.after policy).WellFormed := by
  obtain ⟨service, endpoint, capabilities, i, hcreation⟩ := Moment.creation_of_creates hc
  have hnext := toNat_succ hroom
  have htidy : (m.after policy).Tidy := hw.tidy.after_event
  have hids : (m.after policy).ids.Perm ((m.met.lastId + 1) :: m.met.ids) := by
    rw [← hcreation.id_eq]
    exact hcreation.ids_perm
  refine ⟨?_, ?_, htidy.endpoints_nodup, htidy.services_apart⟩
  · exact hids.nodup_iff.2 (List.nodup_cons.2 ⟨hw.next_not_mem_ids, hw.ids_nodup⟩)
  · intro id hmem
    rw [hcreation.lastId_eq]
    simp only [UInt64.le_iff_toNat_le, hnext]
    rcases List.mem_cons.1 (hids.mem_iff.1 hmem) with rfl | hmem
    · rw [hnext]
      exact ⟨Nat.le_add_left 1 _, Nat.le_refl _⟩
    · obtain ⟨hpos, hle⟩ := hw.ids_given id hmem
      rw [UInt64.le_iff_toNat_le] at hpos hle
      exact ⟨hpos, by omega⟩

/-! ## Every event keeps it -/

/-- An event that meets a well-formed inventory and finds a number left if it needs one. -/
structure Moment.Sound (policy : Policy) (m : Moment) : Prop where
  wellFormed : m.met.WellFormed
  room : m.creates policy = true → m.met.lastId.toNat + 1 < UInt64.size

theorem lastId_after_of_not_creates (hw : m.met.WellFormed) (hc : m.creates policy = false) :
    (m.after policy).lastId = m.met.lastId := by
  rw [Moment.after_eq hw.ids_nodup hc, retain_lastId, amend_lastId]

/-- A new instance has the number after the last one given. -/
theorem Moment.Sound.toNat_id (h : m.Sound policy) {service : Service} {endpoint : Endpoint}
    {capabilities : List Capability} {i : Instance}
    (hcreation : Moment.Creation policy m service endpoint capabilities i) :
    i.id.toNat = m.met.lastId.toNat + 1 := by
  rw [hcreation.id_eq]
  exact toNat_succ (h.room hcreation.creates_eq)

theorem Moment.Sound.lastId_lt (h : m.Sound policy) {service : Service} {endpoint : Endpoint}
    {capabilities : List Capability} {i : Instance}
    (hcreation : Moment.Creation policy m service endpoint capabilities i) :
    m.met.lastId < i.id := by
  rw [UInt64.lt_iff_toNat_lt, h.toNat_id hcreation]
  omega

theorem Moment.Sound.toNat_lastId_of_creates (h : m.Sound policy)
    (hc : m.creates policy = true) :
    (m.after policy).lastId.toNat = m.met.lastId.toNat + 1 := by
  obtain ⟨_, _, _, _, hcreation⟩ := Moment.creation_of_creates hc
  rw [hcreation.lastId_eq, ← hcreation.id_eq]
  exact h.toNat_id hcreation

/-- The last number given never decreases. -/
theorem Moment.Sound.lastId_le (h : m.Sound policy) :
    m.met.lastId ≤ (m.after policy).lastId := by
  rw [UInt64.le_iff_toNat_le]
  cases hc : m.creates policy with
  | true =>
    rw [h.toNat_lastId_of_creates hc]
    omega
  | false =>
    have heq := lastId_after_of_not_creates h.wellFormed hc
    exact Nat.le_of_eq (congrArg UInt64.toNat heq.symm)

theorem Moment.Sound.wellFormed_after (h : m.Sound policy) : (m.after policy).WellFormed := by
  cases hc : m.creates policy with
  | true => exact h.wellFormed.of_creates hc (h.room hc)
  | false =>
    rw [Moment.after_eq h.wellFormed.ids_nodup hc]
    exact (h.wellFormed.amend (Moment.sameRegistration_touch policy m)).retain _

/-! ## Every run keeps it -/

/-- A well-formed inventory and a run that does not use up its numbers. -/
structure Ready (policy : Policy) (inv : Inventory) (es : List Event) : Prop where
  wellFormed : inv.WellFormed
  room : inv.lastId.toNat + creations policy inv es < UInt64.size

theorem ready_empty {es : List Event} (h : creations policy empty es < UInt64.size) :
    Ready policy empty es where
  wellFormed := wellFormed_empty
  room := by
    have hzero : empty.lastId.toNat = 0 := rfl
    omega

section

variable {inv : Inventory} {e : Event} {es fs : List Event}

theorem Ready.head (h : Ready policy inv (e :: es)) : (Moment.mk e inv).Sound policy where
  wellFormed := h.wellFormed
  room := by
    intro hc
    have hroom := h.room
    rw [creations_cons, if_pos hc] at hroom
    show inv.lastId.toNat + 1 < UInt64.size
    omega

/-- What is ready for a run is ready for the rest of it after the first event. -/
theorem Ready.tail (h : Ready policy inv (e :: es)) :
    Ready policy ((Moment.mk e inv).after policy) es where
  wellFormed := h.head.wellFormed_after
  room := by
    -- A creation takes one of the numbers left, any other event none.
    have hroom := h.room
    rw [creations_cons] at hroom
    cases hc : (Moment.mk e inv).creates policy with
    | true =>
      have hnext : ((Moment.mk e inv).after policy).lastId.toNat = inv.lastId.toNat + 1 :=
        h.head.toNat_lastId_of_creates hc
      simp only [hc, if_true] at hroom
      omega
    | false =>
      rw [lastId_after_of_not_creates h.wellFormed hc]
      simp only [hc, Bool.false_eq_true, if_false, Nat.zero_add] at hroom
      exact hroom

theorem Ready.append_right (h : Ready policy inv (es ++ fs)) :
    Ready policy (after policy inv es) fs := by
  -- Along the first run: each event hands what is ready on to the rest.
  induction es generalizing inv with
  | nil => exact h
  | cons e es ih => exact ih h.tail

theorem Ready.append_left (h : Ready policy inv (es ++ fs)) : Ready policy inv es where
  wellFormed := h.wellFormed
  room := by
    have hroom := h.room
    rw [creations_append] at hroom
    omega

theorem Ready.wellFormed_after (h : Ready policy inv es) : (after policy inv es).WellFormed := by
  have happend : Ready policy inv (es ++ []) := by rwa [List.append_nil]
  exact happend.append_right.wellFormed

/-- What every event keeps, every run keeps. -/
theorem Ready.after_induction {P : Inventory → Prop} (h : Ready policy inv es) (hinv : P inv)
    (hstep : ∀ m : Moment, m.Sound policy → P m.met → P (m.after policy)) :
    P (after policy inv es) := by
  -- Along the run, for all inventories that are ready for what is left of it.
  induction es generalizing inv with
  | nil => exact hinv
  | cons e es ih => exact ih h.tail (hstep ⟨e, inv⟩ h.head hinv)

end

/-- A run gives out one number for each instance that it creates. -/
theorem Ready.toNat_lastId_after {inv : Inventory} {es : List Event} (h : Ready policy inv es) :
    (after policy inv es).lastId.toNat = inv.lastId.toNat + creations policy inv es := by
  induction es generalizing inv with
  | nil => rfl
  | cons e es ih =>
    have hrest := ih h.tail
    rw [creations_cons]
    show (after policy ((Moment.mk e inv).after policy) es).lastId.toNat = _
    cases hc : (Moment.mk e inv).creates policy with
    | true =>
      have hnext : ((Moment.mk e inv).after policy).lastId.toNat = inv.lastId.toNat + 1 :=
        h.head.toNat_lastId_of_creates hc
      rw [if_pos rfl]
      omega
    | false =>
      have heq : ((Moment.mk e inv).after policy).lastId = inv.lastId :=
        lastId_after_of_not_creates h.wellFormed hc
      rw [heq] at hrest
      rw [if_neg Bool.false_ne_true]
      omega

/-! ## Entries only accumulate -/

theorem Moment.Sound.services_prefix (h : m.Sound policy) :
    m.met.services <+: (m.after policy).services := by
  cases hc : m.creates policy with
  | false =>
    have heq : (m.after policy).services = m.met.services := by
      rw [Moment.after_eq h.wellFormed.ids_nodup hc, retain_services, amend_services]
    exact ⟨[], by rw [List.append_nil, heq]⟩
  | true =>
    obtain ⟨service, _, _, _, hcreation⟩ := Moment.creation_of_creates hc
    rcases hcreation.services_eq with heq | ⟨-, heq⟩
    · exact ⟨[], by rw [List.append_nil, heq]⟩
    · exact ⟨[service], heq.symm⟩

theorem Ready.services_prefix {inv : Inventory} {es : List Event} (h : Ready policy inv es) :
    inv.services <+: (after policy inv es).services := by
  refine h.after_induction (P := fun later => inv.services <+: later.services) ?_ ?_
  · exact List.prefix_refl _
  · intro m hm hprefix
    exact hprefix.trans hm.services_prefix

/-! ## The invariant of all runs -/

/-- The services of the entries of one name. -/
def owned (inv : Inventory) (name : String) : List Service :=
  inv.services.filter (·.name == name)

/-- After every run from the empty inventory numbers are distinct and were given out,
    endpoints are distinct within each entry, and entries do not accept each other's services.
    So a name has one entry without a deploy path, or only entries with different ones, and
    a deploy path is looked up in at most one entry. Whatever follows, the entries keep their
    places and their services. -/
theorem reachable_wellFormed (policy : Policy) (es more : List Event)
    (h : creations policy empty (es ++ more) < UInt64.size) :
    let inv := after policy empty es
    inv.ids.Nodup ∧ (∀ id ∈ inv.ids, 1 ≤ id ∧ id ≤ inv.lastId) ∧
    (∀ e ∈ inv.entries, (e.instances.map (·.endpoint)).Nodup) ∧
    inv.entries.Pairwise (fun d e => d.service.accepts e.service = false) ∧
    (∀ name, (∃ s, inv.owned name = [s] ∧ s.path? = none) ∨
      (∀ s ∈ inv.owned name, ∃ p, p ≠ "" ∧ s.path? = some p) ∧
        ((inv.owned name).map (·.path?)).Nodup) ∧
    (∀ name path, path ≠ "" → (inv.lookup ⟨name, some path⟩).length ≤ 1) ∧
    inv.services <+: (after policy empty (es ++ more)).services := by
  intro inv
  have hready := ready_empty h
  have hw : inv.WellFormed := hready.append_left.wellFormed_after
  refine ⟨hw.ids_nodup, hw.ids_given, hw.endpoints_nodup, List.pairwise_map.1 hw.services_apart,
    ?_, ?_, ?_⟩
  · -- Services that are apart stay so when those of one name are picked out.
    intro name
    have hapart : Service.Apart (inv.owned name) := hw.services_apart.filter _
    have hname : ∀ s ∈ inv.owned name, s.name = name :=
      fun s hs => by simpa using (List.mem_filter.1 hs).2
    exact hapart.one_or_paths hname
  · intro name path hpath
    have hle := Service.Apart.length_filter_le_one hw.services_apart
      (Service.path?_of_ne_empty name hpath)
    rw [services, List.filter_map, List.length_map] at hle
    rw [lookup, List.length_map]
    exact hle
  · rw [after_append]
    exact hready.append_right.services_prefix

/-- One name registered with a deploy path, then without one, then with another path. -/
theorem reachable_wellFormed_mixed_paths :
    let es : List Event := [⟨1000, .enrol ⟨"kv", some "ns/g/kv/7"⟩ ⟨"10.0.0.5", 9000⟩ [.tcp]⟩,
      ⟨1001, .enrol ⟨"kv", none⟩ ⟨"10.0.0.6", 9000⟩ [.tcp]⟩]
    let more : List Event := [⟨1002, .enrol ⟨"kv", some "ns/g/kv/8"⟩ ⟨"10.0.0.5", 9000⟩ [.tcp]⟩]
    creations {} empty (es ++ more) < UInt64.size ∧
      (after {} empty es).ids.Nodup ∧
      ((after {} empty es).lookup ⟨"kv", some "ns/g/kv/7"⟩).length ≤ 1 ∧
      (after {} empty es).services <+: (after {} empty (es ++ more)).services := by
  intro es more
  have h : creations {} empty (es ++ more) < UInt64.size := by decide
  obtain ⟨hids, -, -, -, -, hlookup, hprefix⟩ := reachable_wellFormed {} es more h
  exact ⟨h, hids, hlookup "kv" "ns/g/kv/7" (by decide), hprefix⟩

end ServiceRegistry.Inventory
