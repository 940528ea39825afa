/-
  ServiceRegistry.Proofs.Inventory.Effect

  What an event does to the instances it meets. Whatever the action, each instance is first
  rewritten on its own (`touch`), and then stays or goes on its own (`spares`); only a
  registration adds one. `after_eq` and `Creation` say so for inventories with distinct
  numbers, and no later proof needs to look at the operations again.
-/
import ServiceRegistry.Proofs.Inventory.Action
import ServiceRegistry.Proofs.Inventory.Change
import ServiceRegistry.Proofs.Inventory.Registration

namespace ServiceRegistry.Inventory

namespace Moment

/-! ## The effect on one instance -/

section

variable (policy : Policy) (m : Moment)

/-- An instance as the event leaves it, if it leaves it. -/
def touch (i : Instance) : Instance :=
  match m.action with
  | .enrol .. => if m.returns policy i.id then i.refreshed m.now else i
  | .retire id | .withdraw id => onlyAt id (·.hidden) i
  | .withdrawPorts host ports => if listensAt host ports i then i.hidden else i
  | .sweep => i
  | .noteProbe id success => onlyAt id (·.probed success m.now) i

/-- The event removes what the policy does not keep: it is a sweep, a removal that was not
    refused, or a removal by ports that met an instance to remove. -/
def sweeps : Bool :=
  match m.action, m.answer policy with
  | .sweep, _ => true
  | .withdraw _, .withdrawn (.ok _) => true
  | .withdrawPorts host ports, _ => m.met.anyListens host ports
  | _, _ => false

/-- The event lets an instance stay that it left as it is now. -/
def spares (i : Instance) : Bool := !m.sweeps policy || policy.keeps m.now i

end

variable {policy : Policy} {m : Moment}

theorem sameRegistration_touch (policy : Policy) (m : Moment) (i : Instance) :
    SameRegistration i (m.touch policy i) := by
  unfold touch
  cases m.action with
  | enrol =>
    dsimp only
    split
    · exact sameRegistration_refreshed i m.now
    · exact .refl i
  | retire id => exact sameRegistration_onlyAt sameRegistration_hidden id i
  | withdraw id => exact sameRegistration_onlyAt sameRegistration_hidden id i
  | withdrawPorts host ports =>
    dsimp only
    split
    · exact sameRegistration_hidden i
    · exact .refl i
  | sweep => exact .refl i
  | noteProbe id success =>
    exact sameRegistration_onlyAt (fun j => sameRegistration_probed j success m.now) id i

theorem retain_spares_of_not_sweeps (h : m.sweeps policy = false) (inv : Inventory) :
    inv.retain (m.spares policy) = inv := by
  apply retain_eq_self
  intro i _
  simp only [spares, h, Bool.not_false, Bool.true_or]

theorem retain_spares_of_sweeps (h : m.sweeps policy = true) (inv : Inventory) :
    inv.retain (m.spares policy) = inv.retain (policy.keeps m.now) := by
  congr 1
  funext i
  simp only [spares, h, Bool.not_true, Bool.false_or]

/-! ## Registrations -/

/-- A registration is refused, or it is filed and then answered with its record. -/
theorem enrol_cases (policy : Policy) {m : Moment} {service : Service} {endpoint : Endpoint}
    {capabilities : List Capability} (h : m.action = .enrol service endpoint capabilities) :
    (service.name = "" ∧ m.answer policy = .enrolled (.error .missingName) ∧
      m.after policy = m.met) ∨
    ∃ r fs, service.name ≠ "" ∧
      Filed (m.met.lastId + 1) service endpoint capabilities m.now m.met.entries r fs ∧
      m.answer policy = .enrolled (.ok r) ∧
      m.after policy = ⟨fs, if r.created then m.met.lastId + 1 else m.met.lastId⟩ := by
  by_cases hname : service.name = ""
  · left
    have hperform : m.perform policy m.met = (.enrolled (.error .missingName), m.met) := by
      simp only [Event.perform, h, Inventory.enrol, hname, if_true, attempt]
    exact ⟨hname, by rw [answer, hperform], by rw [after, hperform]⟩
  · right
    refine ⟨_, _, hname, filed_enrolAmong, ?_, ?_⟩
    · simp only [answer, Event.perform, h, Inventory.enrol, hname, if_false, attempt]
    · simp only [after, Event.perform, h, Inventory.enrol, hname, if_false, attempt]

/-- A creation: the instance `i` is new where the service is placed, and nothing else
    changes. -/
structure Creation (policy : Policy) (m : Moment) (service : Service) (endpoint : Endpoint)
    (capabilities : List Capability) (i : Instance) : Prop where
  action_eq : m.action = .enrol service endpoint capabilities
  instance_eq : i = .enrolled (m.met.lastId + 1) endpoint capabilities m.now
  answer_eq : m.answer policy = .enrolled (.ok ⟨i, true⟩)
  lastId_eq : (m.after policy).lastId = m.met.lastId + 1
  services_eq : (m.after policy).services = m.met.services ∨
    (∀ s ∈ m.met.services, s.accepts service = false) ∧
      (m.after policy).services = m.met.services ++ [service]
  stored_perm : (m.after policy).stored.Perm ((service.place m.met.services, i) :: m.met.stored)

theorem attempt_enrolment? {α : Type} {answer : Except RegistryError α → Answer}
    (h : ∀ x, (answer x).enrolment? = none) (inv : Inventory)
    (r : Except RegistryError (α × Inventory)) : (attempt inv answer r).1.enrolment? = none := by
  cases r with
  | ok x => exact h (.ok x.1)
  | error e => exact h (.error e)

/-- Only a registration is answered with one. -/
theorem exists_enrol_of_enrolment? {r : Enrolment}
    (h : (m.answer policy).enrolment? = some r) :
    ∃ service endpoint capabilities, m.action = .enrol service endpoint capabilities := by
  cases haction : m.action with
  | enrol service endpoint capabilities => exact ⟨service, endpoint, capabilities, rfl⟩
  | retire id =>
    have hnone : ∀ x, (Answer.retired x).enrolment? = none := fun _ => rfl
    simp only [answer, Event.perform, haction, attempt_enrolment? hnone, reduceCtorEq] at h
  | withdraw id =>
    have hnone : ∀ x, (Answer.withdrawn x).enrolment? = none := fun _ => rfl
    simp only [answer, Event.perform, haction, attempt_enrolment? hnone, reduceCtorEq] at h
  | withdrawPorts host ports =>
    simp only [answer, Event.perform, haction, Answer.enrolment?, reduceCtorEq] at h
  | sweep => simp only [answer, Event.perform, haction, Answer.enrolment?, reduceCtorEq] at h
  | noteProbe id success =>
    simp only [answer, Event.perform, haction, Answer.enrolment?, reduceCtorEq] at h

theorem creation_of_creates (h : m.creates policy = true) :
    ∃ service endpoint capabilities i, Creation policy m service endpoint capabilities i := by
  obtain ⟨r, henrolment, hr⟩ := (Option.any_eq_true _ _).1 h
  obtain ⟨service, endpoint, capabilities, haction⟩ := exists_enrol_of_enrolment? henrolment
  rcases enrol_cases policy haction with ⟨-, hanswer, -⟩ | ⟨r', fs, -, hfiled, hanswer, hafter⟩
  · -- What is refused reports no registration.
    simp only [hanswer, Answer.enrolment?, reduceCtorEq] at henrolment
  · simp only [hanswer, Answer.enrolment?, Option.some.injEq] at henrolment
    subst henrolment
    have hperm := hfiled.stored_perm hr (m.met.lastId + 1) m.met.lastId
    refine ⟨service, endpoint, capabilities, r'.current, haction, hfiled.current_eq hr, ?_, ?_, ?_,
      ?_⟩
    · rw [hanswer, ← hr]
    · rw [hafter, hr]
      rfl
    · rw [hafter]
      rcases hfiled.services_eq with heq | ⟨hnone, heq⟩
      · exact .inl heq
      · refine .inr ⟨fun s hs => ?_, heq⟩
        obtain ⟨d, hd, rfl⟩ := List.mem_map.1 hs
        exact hnone d hd
    · rw [hafter, hr]
      exact hperm

theorem creation_of_enrolment? {i : Instance}
    (h : (m.answer policy).enrolment? = some ⟨i, true⟩) :
    ∃ service endpoint capabilities, Creation policy m service endpoint capabilities i := by
  have hcreates : m.creates policy = true := by simp only [creates, h, Option.any_some]
  obtain ⟨service, endpoint, capabilities, j, hcreation⟩ := creation_of_creates hcreates
  have hji : j = i := by
    rw [hcreation.answer_eq, Answer.enrolment?] at h
    cases h
    rfl
  subst hji
  exact ⟨service, endpoint, capabilities, hcreation⟩

section

variable {service : Service} {endpoint : Endpoint} {capabilities : List Capability} {i : Instance}

theorem Creation.creates_eq (h : Creation policy m service endpoint capabilities i) :
    m.creates policy = true := by
  simp only [creates, h.answer_eq, Answer.enrolment?, Option.any_some]

theorem Creation.id_eq (h : Creation policy m service endpoint capabilities i) :
    i.id = m.met.lastId + 1 := by
  rw [h.instance_eq]
  rfl

theorem Creation.ids_perm (h : Creation policy m service endpoint capabilities i) :
    (m.after policy).ids.Perm (i.id :: m.met.ids) := by
  have hperm := h.stored_perm.map (·.2.id)
  rw [stored_map_id, List.map_cons, stored_map_id] at hperm
  exact hperm

end

/-! ## Every event but a creation -/

theorem after_eq_of_enrol (hn : m.met.ids.Nodup) {service : Service} {endpoint : Endpoint}
    {capabilities : List Capability} (h : m.action = .enrol service endpoint capabilities)
    (hc : m.creates policy = false) :
    m.after policy = (m.met.amend (m.touch policy)).retain (m.spares policy) := by
  have hsweeps : m.sweeps policy = false := by simp only [sweeps, h]
  rw [retain_spares_of_not_sweeps hsweeps]
  rcases enrol_cases policy h with ⟨-, hanswer, hafter⟩ | ⟨r, fs, -, hfiled, hanswer, hafter⟩
  · -- Refused: the answer reports no registration, so no instance is refreshed.
    rw [hafter]
    symm
    apply amend_eq_self
    intro i _
    simp only [touch, h, returns, hanswer, Answer.enrolment?, Option.any_none,
      Bool.false_eq_true, if_false]
  · -- Filed without a creation: one instance is refreshed, the one that is answered.
    have hr : r.created = false := by
      simpa only [creates, hanswer, Answer.enrolment?, Option.any_some] using hc
    obtain ⟨i, hcurrent, hreplaced⟩ := hfiled.replaced hr
    have hamend := Replaced.eq_amend (f := (·.refreshed m.now)) hreplaced hn
    rw [hafter, hr]
    simp only [Bool.false_eq_true, if_false, hamend]
    apply amend_congr
    intro j _
    have hreturns : m.returns policy j.id = (i.id == j.id) := by
      simp only [returns, hanswer, Answer.enrolment?, Option.any_some, hcurrent]
      rfl
    by_cases hij : i.id = j.id
    · simp only [touch, h, hreturns, onlyAt, hij, BEq.rfl, if_true]
    · have hji : j.id ≠ i.id := fun heq => hij heq.symm
      simp only [touch, h, hreturns, onlyAt, beq_iff_eq, hij, hji, if_false]

theorem after_eq_of_retire (hn : m.met.ids.Nodup) {id : InstanceId}
    (h : m.action = .retire id) :
    m.after policy = (m.met.amend (m.touch policy)).retain (m.spares policy) := by
  have hsweeps : m.sweeps policy = false := by simp only [sweeps, h]
  have htouch : m.touch policy = onlyAt id (·.hidden) := by funext i; simp only [touch, h]
  rw [retain_spares_of_not_sweeps hsweeps, htouch]
  by_cases hid : id ∈ m.met.ids
  · obtain ⟨s, i, hi, rfl⟩ := mem_ids.1 hid
    simp only [after, Event.perform, h, retire_of_mem hn hi, attempt]
  · -- The number is unknown: the event is refused, and no instance has it to be hidden.
    simp only [after, Event.perform, h, retire_of_not_mem hid, attempt,
      amend_onlyAt_of_not_mem _ hid]

theorem after_eq_of_withdraw (hn : m.met.ids.Nodup) {id : InstanceId}
    (h : m.action = .withdraw id) :
    m.after policy = (m.met.amend (m.touch policy)).retain (m.spares policy) := by
  have htouch : m.touch policy = onlyAt id (·.hidden) := by funext i; simp only [touch, h]
  rw [htouch]
  by_cases hid : id ∈ m.met.ids
  · obtain ⟨s, i, hi, rfl⟩ := mem_ids.1 hid
    have hsweeps : m.sweeps policy = true := by
      simp only [sweeps, answer, Event.perform, h, withdraw_of_mem hn hi, attempt]
    rw [retain_spares_of_sweeps hsweeps]
    simp only [after, Event.perform, h, withdraw_of_mem hn hi, attempt, sweep_eq]
  · -- A withdrawal that is refused does not sweep.
    have hsweeps : m.sweeps policy = false := by
      simp only [sweeps, answer, Event.perform, h, withdraw_of_not_mem hid, attempt]
    rw [retain_spares_of_not_sweeps hsweeps]
    simp only [after, Event.perform, h, withdraw_of_not_mem hid, attempt,
      amend_onlyAt_of_not_mem _ hid]

theorem after_eq_of_withdrawPorts {host : String} {ports : List UInt16}
    (h : m.action = .withdrawPorts host ports) :
    m.after policy = (m.met.amend (m.touch policy)).retain (m.spares policy) := by
  have hsweeps : m.sweeps policy = m.met.anyListens host ports := by simp only [sweeps, h]
  have htouch : m.touch policy = fun i => if listensAt host ports i then i.hidden else i := by
    funext i; simp only [touch, h]
  rw [htouch]
  cases hany : m.met.anyListens host ports with
  | true =>
    rw [retain_spares_of_sweeps (hsweeps.trans hany)]
    simp only [after, Event.perform, h, withdrawPorts_of_any hany, sweep_eq]
  | false =>
    -- Nothing listens there, so hiding what does would change nothing.
    have hself : m.met.amend (fun i => if listensAt host ports i then i.hidden else i)
        = m.met := by
      apply amend_eq_self
      intro i hi
      refine if_neg fun hlistens => ?_
      rw [anyListens_iff.2 ⟨i, hi, hlistens⟩] at hany
      cases hany
    rw [retain_spares_of_not_sweeps (hsweeps.trans hany), hself]
    simp only [after, Event.perform, h, withdrawPorts_of_none hany]

theorem after_eq_of_sweep (h : m.action = .sweep) :
    m.after policy = (m.met.amend (m.touch policy)).retain (m.spares policy) := by
  have hsweeps : m.sweeps policy = true := by simp only [sweeps, h]
  have htouch : m.touch policy = fun i => i := by funext i; simp only [touch, h]
  rw [retain_spares_of_sweeps hsweeps, htouch, amend_self]
  simp only [after, Event.perform, h, sweep_eq]

theorem after_eq_of_noteProbe (hn : m.met.ids.Nodup) {id : InstanceId} {success : Bool}
    (h : m.action = .noteProbe id success) :
    m.after policy = (m.met.amend (m.touch policy)).retain (m.spares policy) := by
  have hsweeps : m.sweeps policy = false := by simp only [sweeps, h]
  have htouch : m.touch policy = onlyAt id (·.probed success m.now) := by
    funext i; simp only [touch, h]
  rw [retain_spares_of_not_sweeps hsweeps, htouch]
  by_cases hid : id ∈ m.met.ids
  · obtain ⟨s, i, hi, rfl⟩ := mem_ids.1 hid
    simp only [after, Event.perform, h, noteProbe_of_mem hn hi]
  · -- The outcome of a probe that was overtaken by a removal is dropped.
    simp only [after, Event.perform, h, noteProbe_of_not_mem hid,
      amend_onlyAt_of_not_mem _ hid]

/-- An event that creates nothing rewrites every instance and then removes some. -/
theorem after_eq (hn : m.met.ids.Nodup) (hc : m.creates policy = false) :
    m.after policy = (m.met.amend (m.touch policy)).retain (m.spares policy) := by
  cases h : m.action with
  | enrol service endpoint capabilities => exact after_eq_of_enrol hn h hc
  | retire id => exact after_eq_of_retire hn h
  | withdraw id => exact after_eq_of_withdraw hn h
  | withdrawPorts host ports => exact after_eq_of_withdrawPorts h
  | sweep => exact after_eq_of_sweep h
  | noteProbe id success => exact after_eq_of_noteProbe hn h

theorem ids_after_subset (hn : m.met.ids.Nodup) (hc : m.creates policy = false) :
    (m.after policy).ids ⊆ m.met.ids := by
  rw [after_eq hn hc]
  intro id hid
  have hmem := (retain_ids_sublist _ _).subset hid
  rwa [amend_ids fun i => (sameRegistration_touch policy m i).id_eq] at hmem

/-! ## The number of instances -/

theorem size_after_of_creates (hc : m.creates policy = true) :
    (m.after policy).size = m.met.size + 1 := by
  obtain ⟨_, _, _, _, hcreation⟩ := creation_of_creates hc
  exact hcreation.stored_perm.length_eq

theorem size_after_le (hn : m.met.ids.Nodup) (hc : m.creates policy = false) :
    (m.after policy).size ≤ m.met.size := by
  rw [after_eq hn hc, size_eq_length, size_eq_length, retain_instances, amend_instances]
  exact Nat.le_trans (List.length_filter_le _ _) (Nat.le_of_eq (List.length_map _))

end Moment

end ServiceRegistry.Inventory
