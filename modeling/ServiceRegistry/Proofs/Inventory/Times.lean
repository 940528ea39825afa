/-
  ServiceRegistry.Proofs.Inventory.Times

  The times of instances. All times of a new instance are the clock reading of the event that has
  registered it. Later events set its time of refresh or its time of success to their own
  reading, whatever it is, and only a registration of its endpoint sets the one and only a
  successful probe of it the other (`Moment.Sound.born_or_aged`).
-/
import ServiceRegistry.Proofs.Inventory.Renewal

namespace ServiceRegistry.Inventory

/-! ## Actions that set times -/

/-- The action registers the endpoint of the instance. -/
def Action.Renews (i : Instance) : Action → Prop
  | enrol _ endpoint _ => endpoint = i.endpoint
  | _ => False

/-- The action registers the endpoint of the instance, or notes that it has answered a probe. -/
def Action.Confirms (i : Instance) : Action → Prop
  | enrol _ endpoint _ => endpoint = i.endpoint
  | noteProbe id success => id = i.id ∧ success = true
  | _ => False

section

variable {i j : Instance} {a : Action}

theorem Action.Renews.confirms (h : a.Renews i) : a.Confirms i := by
  cases a with
  | enrol => exact h
  | _ => exact h.elim

theorem SameRegistration.renews_iff (h : SameRegistration i j) : a.Renews j ↔ a.Renews i := by
  cases a <;> simp only [Action.Renews, h.endpoint_eq]

theorem SameRegistration.confirms_iff (h : SameRegistration i j) :
    a.Confirms j ↔ a.Confirms i := by
  cases a <;> simp only [Action.Confirms, h.endpoint_eq, h.id_eq]

end

/-! ## Instances after an event -/

/-- An instance that an event has registered. -/
structure Born (e : Event) (j : Instance) : Prop where
  renews : e.action.Renews j
  firstRegistered_eq : j.firstRegistered = e.now
  lastRefresh_eq : j.lastRefresh = e.now
  lastSuccess_eq : j.lastSuccess = e.now

/-- An instance before and after an event. -/
structure Aged (e : Event) (i j : Instance) : Prop extends SameRegistration i j where
  lastRefresh_eq : j.lastRefresh = i.lastRefresh ∨ e.action.Renews j ∧ j.lastRefresh = e.now
  lastSuccess_eq : j.lastSuccess = i.lastSuccess ∨ e.action.Confirms j ∧ j.lastSuccess = e.now

theorem Aged.refl (e : Event) (i : Instance) : Aged e i i := ⟨.refl i, .inl rfl, .inl rfl⟩

theorem aged_hidden (e : Event) (i : Instance) : Aged e i i.hidden :=
  ⟨sameRegistration_hidden i, .inl rfl, .inl rfl⟩

section

variable {policy : Policy} {m : Moment} {s : Service} {j : Instance}

/-- Whom a registration returns has the endpoint registered. -/
theorem endpoint_of_returns (hm : m.Sound policy) {service : Service} {endpoint : Endpoint}
    {capabilities : List Capability} (haction : m.action = .enrol service endpoint capabilities)
    (hj : (s, j) ∈ (m.after policy).stored) (hreturns : m.returns policy j.id = true) :
    j.endpoint = endpoint := by
  rcases Moment.enrol_cases policy haction with
    ⟨-, hanswer, -⟩ | ⟨r, fs, -, hfiled, hanswer, hafter⟩
  · simp only [Moment.returns, hanswer, Answer.enrolment?, Option.any_none, Bool.false_eq_true]
      at hreturns
  · have hid : r.current.id = j.id := by
      simpa only [Moment.returns, hanswer, Answer.enrolment?, Option.any_some, beq_iff_eq]
        using hreturns
    -- It is the one that the registration has filed, since numbers are distinct.
    obtain ⟨e, i, hfirst, hi, hendpoint, hsame⟩ :=
      hfiled.houses (if r.created then m.met.lastId + 1 else m.met.lastId)
    rw [← hafter] at hfirst
    have hstored : (e.service, i) ∈ (m.after policy).stored :=
      mem_stored.2 ⟨e, List.mem_of_find?_eq_some hfirst, rfl, hi⟩
    obtain ⟨-, rfl⟩ :=
      eq_of_id_eq hm.wellFormed_after.ids_nodup hj hstored (hid.symm.trans hsame.symm)
    exact hendpoint

theorem aged_touch {i : Instance}
    (hreturns : ∀ service endpoint capabilities, m.action = .enrol service endpoint capabilities →
      m.returns policy i.id = true → endpoint = i.endpoint) :
    Aged m.toEvent i (m.touch policy i) := by
  unfold Moment.touch
  cases haction : m.action with
  | enrol service endpoint capabilities =>
    dsimp only
    split
    case isTrue h =>
      refine ⟨sameRegistration_refreshed i m.now, .inr ⟨?_, rfl⟩, .inl rfl⟩
      rw [haction]
      exact hreturns service endpoint capabilities haction h
    case isFalse => exact .refl _ i
  | retire id | withdraw id =>
    dsimp only [onlyAt]
    split
    · exact aged_hidden _ i
    · exact .refl _ i
  | withdrawPorts host ports =>
    dsimp only
    split
    · exact aged_hidden _ i
    · exact .refl _ i
  | sweep => exact .refl _ i
  | noteProbe id success =>
    dsimp only [onlyAt]
    split
    case isTrue h =>
      refine ⟨sameRegistration_probed i success m.now, ?_, ?_⟩
      · cases success <;> exact .inl rfl
      · cases success with
        | true => exact .inr ⟨by rw [haction]; exact ⟨h.symm, rfl⟩, rfl⟩
        | false => exact .inl rfl
    case isFalse => exact .refl _ i

/-- What is stored after an event is new with the reading of the event as all its times, or it
    was there before and the event has set only times that it may set. -/
theorem Moment.Sound.born_or_aged (hm : m.Sound policy)
    (hj : (s, j) ∈ (m.after policy).stored) :
    (m.met.lastId < j.id ∧ Born m.toEvent j) ∨
      ∃ i, (s, i) ∈ m.met.stored ∧ Aged m.toEvent i j := by
  cases hc : m.creates policy with
  | true =>
    obtain ⟨service, endpoint, capabilities, i, hcreation⟩ := Moment.creation_of_creates hc
    rcases List.mem_cons.1 (hcreation.stored_perm.mem_iff.1 hj) with heq | hj
    · left
      obtain ⟨-, rfl⟩ := Prod.mk.inj heq
      refine ⟨hm.lastId_lt hcreation, ?_⟩
      rw [hcreation.instance_eq]
      refine ⟨?_, rfl, rfl, rfl⟩
      rw [hcreation.action_eq]
      rfl
    · exact .inr ⟨j, hj, .refl _ j⟩
  | false =>
    have hstored := hj
    rw [Moment.after_eq hm.wellFormed.ids_nodup hc, mem_stored_retain, mem_stored_amend] at hj
    obtain ⟨⟨i, hi, rfl⟩, -⟩ := hj
    refine .inr ⟨i, hi, aged_touch fun service endpoint capabilities haction hreturns => ?_⟩
    have hsame := sameRegistration_touch policy m i
    rw [← hsame.id_eq] at hreturns
    rw [← hsame.endpoint_eq]
    exact (endpoint_of_returns hm haction hstored hreturns).symm

/-- Under a number that was given before the event there is the same instance. -/
theorem Moment.Sound.aged_of_id_eq (hm : m.Sound policy) {t : Service} {i : Instance}
    (hi : (t, i) ∈ m.met.stored) (hj : (s, j) ∈ (m.after policy).stored) (hid : j.id = i.id) :
    s = t ∧ Aged m.toEvent i j := by
  rcases hm.born_or_aged hj with ⟨hlt, -⟩ | ⟨k, hk, haged⟩
  · -- A new number is beyond all those given.
    rw [hid] at hlt
    have hle := (hm.wellFormed.ids_given i.id (id_mem_ids hi)).2
    exact absurd (UInt64.lt_of_lt_of_le hlt hle) (UInt64.lt_irrefl _)
  · obtain ⟨rfl, rfl⟩ :=
      eq_of_id_eq hm.wellFormed.ids_nodup hk hi (haged.id_eq.symm.trans hid)
    exact ⟨rfl, haged⟩

end

end ServiceRegistry.Inventory
