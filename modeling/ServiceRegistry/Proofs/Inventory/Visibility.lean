/-
  ServiceRegistry.Proofs.Inventory.Visibility

  Hidden instances between events. All events that hide instances sweep them away at once,
  except `retire`: in a run without it no stored instance is hidden.
-/
import ServiceRegistry.Proofs.Inventory.Effect

namespace ServiceRegistry.Inventory

/-! ## Hidden instances -/

/-- No stored instance is hidden. -/
def AllVisible (inv : Inventory) : Prop := ∀ i ∈ inv.instances, i.isVisible = true

section

variable {policy : Policy} {m : Moment} {i : Instance}

theorem keeps_eq_false_of_hidden (now : UInt64) (h : i.isVisible = false) :
    policy.keeps now i = false := by
  have hdisabled : i.disabled = true := by simpa [Instance.isVisible] using h
  simp only [Policy.keeps, Policy.verdict?, hdisabled, if_true]
  split <;> rfl

/-- Apart from `retire`, an event that hides an instance sweeps. -/
theorem Moment.sweeps_of_touch_hidden (hn : m.met.ids.Nodup) {s : Service}
    (hi : (s, i) ∈ m.met.stored) (hretire : ∀ id, m.action ≠ .retire id)
    (hvisible : i.isVisible = true) (hhidden : (m.touch policy i).isVisible = false) :
    m.sweeps policy = true := by
  have hshown : ¬ i.isVisible = false := by
    rw [hvisible]
    decide
  cases haction : m.action with
  | enrol service endpoint capabilities =>
    simp only [touch, haction] at hhidden
    split at hhidden
    · exact absurd hhidden hshown
    · exact absurd hhidden hshown
  | retire id => exact absurd haction (hretire id)
  | withdraw id =>
    simp only [touch, haction, onlyAt] at hhidden
    split at hhidden
    · -- The instance hidden is stored, so the removal was not refused.
      rename_i hid
      subst hid
      simp only [sweeps, answer, Event.perform, haction, withdraw_of_mem hn hi, attempt]
    · exact absurd hhidden hshown
  | withdrawPorts host ports =>
    simp only [touch, haction] at hhidden
    split at hhidden
    · rename_i hlistens
      simp only [sweeps, haction]
      exact anyListens_iff.2 ⟨i, mem_instances.2 ⟨s, hi⟩, hlistens⟩
    · exact absurd hhidden hshown
  | sweep => simp only [sweeps, haction]
  | noteProbe id success =>
    simp only [touch, haction, onlyAt] at hhidden
    split at hhidden
    · cases success <;> exact absurd hhidden hshown
    · exact absurd hhidden hshown

theorem AllVisible.after (h : m.met.AllVisible) (hn : m.met.ids.Nodup)
    (hretire : ∀ id, m.action ≠ .retire id) : (m.after policy).AllVisible := by
  intro j hj
  obtain ⟨s, hj⟩ := mem_instances.1 hj
  cases hc : m.creates policy with
  | true =>
    obtain ⟨_, _, _, i, hcreation⟩ := Moment.creation_of_creates hc
    rcases List.mem_cons.1 (hcreation.stored_perm.mem_iff.1 hj) with heq | hj
    · rw [(Prod.mk.inj heq).2, hcreation.instance_eq]
      rfl
    · exact h j (mem_instances.2 ⟨s, hj⟩)
  | false =>
    rw [Moment.after_eq hn hc, mem_stored_retain, mem_stored_amend] at hj
    obtain ⟨⟨i, hi, rfl⟩, hspares⟩ := hj
    -- An instance just hidden has been swept, and no policy keeps a hidden one.
    by_contra hhidden
    rw [Bool.not_eq_true] at hhidden
    have hsweeps := Moment.sweeps_of_touch_hidden hn hi hretire
      (h i (mem_instances.2 ⟨s, hi⟩)) hhidden
    simp only [Moment.spares, hsweeps, keeps_eq_false_of_hidden m.now hhidden, Bool.not_true,
      Bool.or_self, Bool.false_eq_true] at hspares

end

end ServiceRegistry.Inventory
