/-
  ServiceRegistry.Proofs.Inventory.Probing

  What events do to the record that an instance keeps of its probes: the count of failures
  and the time of the last success. Only the outcome of a probe changes it, and only that of
  the instance probed; a sweep leaves no instance that has failed too often; and a new
  instance has a clean record.
-/
import ServiceRegistry.Proofs.Inventory.Candidates
import ServiceRegistry.Proofs.Inventory.Evictions
import ServiceRegistry.Proofs.Inventory.Identity

namespace ServiceRegistry.Inventory

/-! ## Instances that were not probed -/

/-- Two states of one instance with the same record. -/
structure SameRecord (i j : Instance) : Prop extends SameRegistration i j where
  failures_eq : j.failures = i.failures
  lastSuccess_eq : j.lastSuccess = i.lastSuccess

/-- The record of an instance of which no outcome has been noted. -/
structure CleanRecord (i : Instance) : Prop where
  failures_eq : i.failures = 0
  lastSuccess_eq : i.lastSuccess = i.firstRegistered

theorem SameRecord.refl (i : Instance) : SameRecord i i := ⟨.refl i, rfl, rfl⟩

theorem CleanRecord.of_same {i j : Instance} (h : CleanRecord i) (hsame : SameRecord i j) :
    CleanRecord j where
  failures_eq := hsame.failures_eq.trans h.failures_eq
  lastSuccess_eq := by
    rw [hsame.lastSuccess_eq, h.lastSuccess_eq, hsame.firstRegistered_eq]

theorem cleanRecord_enrolled (id : InstanceId) (endpoint : Endpoint)
    (capabilities : List Capability) (now : UInt64) :
    CleanRecord (.enrolled id endpoint capabilities now) := ⟨rfl, rfl⟩

section

variable {policy : Policy} {m : Moment}

theorem sameRecord_touch (h : ∀ id success, m.action ≠ .noteProbe id success) (i : Instance) :
    SameRecord i (m.touch policy i) := by
  have hrefreshed : SameRecord i (i.refreshed m.now) := ⟨sameRegistration_refreshed i _, rfl, rfl⟩
  have hhidden : SameRecord i i.hidden := ⟨sameRegistration_hidden i, rfl, rfl⟩
  unfold Moment.touch
  cases haction : m.action with
  | enrol =>
    dsimp only
    split
    · exact hrefreshed
    · exact .refl i
  | retire id | withdraw id =>
    dsimp only [onlyAt]
    split
    · exact hhidden
    · exact .refl i
  | withdrawPorts host ports =>
    dsimp only
    split
    · exact hhidden
    · exact .refl i
  | sweep => exact .refl i
  | noteProbe id success => exact absurd haction (h id success)

/-- What is stored after an event that is no outcome is new with a clean record, or it has the
    record that it had. -/
theorem Moment.Sound.sameRecord (hm : m.Sound policy)
    (h : ∀ id success, m.action ≠ .noteProbe id success) {s : Service} {j : Instance}
    (hj : (s, j) ∈ (m.after policy).stored) :
    (m.met.lastId < j.id ∧ CleanRecord j) ∨ ∃ i, (s, i) ∈ m.met.stored ∧ SameRecord i j := by
  cases hc : m.creates policy with
  | true =>
    obtain ⟨_, _, _, i, hcreation⟩ := Moment.creation_of_creates hc
    rcases List.mem_cons.1 (hcreation.stored_perm.mem_iff.1 hj) with heq | hj
    · left
      obtain ⟨-, rfl⟩ := Prod.mk.inj heq
      refine ⟨hm.lastId_lt hcreation, ?_⟩
      rw [hcreation.instance_eq]
      exact cleanRecord_enrolled ..
    · exact .inr ⟨j, hj, .refl j⟩
  | false =>
    rw [Moment.after_eq hm.wellFormed.ids_nodup hc, mem_stored_retain, mem_stored_amend] at hj
    obtain ⟨⟨i, hi, rfl⟩, -⟩ := hj
    exact .inr ⟨i, hi, sameRecord_touch h i⟩

end

/-! ## Outcomes and sweeps -/

section

variable {policy : Policy} {inv : Inventory} {s : Service} {j : Instance} {now : UInt64}

/-- After an outcome is noted, what has the number has noted it, and the rest is as before. -/
theorem mem_stored_noteProbe (hn : inv.ids.Nodup) {id : InstanceId} {success : Bool} :
    (s, j) ∈ (inv.noteProbe id success now).2.stored ↔
      ∃ i, (s, i) ∈ inv.stored ∧ onlyAt id (·.probed success now) i = j := by
  rw [noteProbe_eq_amend hn, mem_stored_amend]

/-- A sweep leaves what was there and has not failed too often. -/
theorem mem_stored_sweep (h : (s, j) ∈ (inv.sweep policy now).2.stored) :
    (s, j) ∈ inv.stored ∧ j.failures ≤ policy.maxFailures := by
  rw [sweep_eq, mem_stored_retain] at h
  exact ⟨h.1, Policy.failures_le_of_keeps h.2⟩

end

/-! ## Candidates -/

theorem candidates_eq (inv : Inventory) :
    inv.candidates = (inv.stored.filter fun p => p.2.isProbeable && p.2.isVisible).map
      fun p => ⟨p.2.id, p.1.name, p.2.endpoint⟩ := by
  simp only [candidates, stored, List.filter_flatMap, List.map_flatMap, List.filter_map,
    List.map_map, Function.comp_def]

/-- A candidate is read once, with a number that was given. -/
theorem candidates_ids_sublist (inv : Inventory) :
    (inv.candidates.map (·.id)).Sublist inv.ids := by
  rw [candidates_eq, List.map_map, ← stored_map_id]
  exact List.filter_sublist.map _

end ServiceRegistry.Inventory
