/-
  ServiceRegistry.Proofs.Inventory.Evictions

  Why instances are removed. An eviction reports an instance that was stored, hidden by the
  event if that is why it goes, and the first test of the policy that it failed; so each
  reason tells something about the instance.
-/
import ServiceRegistry.Proofs.Inventory.Effect

namespace ServiceRegistry

/-! ## Reasons -/

section

variable {policy : Policy} {i : Instance} {now : UInt64}

theorem Policy.failures_gt_of_verdict? (h : policy.verdict? i now = some .excessiveFailures) :
    policy.maxFailures < i.failures := by
  unfold verdict? at h
  split at h
  · cases h
  · split at h
    · cases h
    · split at h
      · assumption
      · split at h <;> cases h

theorem Policy.isProbeable_of_verdict? (h : policy.verdict? i now = some .noRecentSuccess) :
    i.isProbeable = true := by
  unfold verdict? at h
  split at h
  · cases h
  · split at h
    · cases h
    · split at h
      · cases h
      · split at h
        · rename_i hlate
          exact (Bool.and_eq_true _ _ ▸ hlate).1
        · cases h

theorem Policy.keeps_iff :
    policy.keeps now i = true ↔
      elapsed i.lastRefresh now ≤ policy.maxAge.millis ∧ i.disabled = false ∧
        i.failures ≤ policy.maxFailures ∧
        (i.isProbeable = true → elapsed i.lastSuccess now ≤ policy.successWindow.millis) := by
  unfold keeps verdict?
  rw [← UInt64.not_lt, ← UInt64.not_lt, ← UInt32.not_lt]
  -- One case for each test, in the order in which they are made.
  split
  case isTrue hstale => simp [hstale]
  case isFalse hfresh =>
    split
    case isTrue hdisabled => simp [hdisabled]
    case isFalse henabled =>
      split
      case isTrue hfailures => simp [hfailures]
      case isFalse hfew =>
        split
        case isTrue hlate => simp_all
        case isFalse htimely => simp_all

theorem Policy.failures_le_of_keeps (h : policy.keeps now i = true) :
    i.failures ≤ policy.maxFailures :=
  (keeps_iff.1 h).2.2.1

end

namespace Inventory

/-! ## Evictions -/

/-- The evictions that an answer reports. -/
def Answer.evictions : Answer → List Eviction
  | withdrawn (.ok evictions) => evictions
  | swept evictions => evictions
  | _ => []

theorem verdict?_of_mem_sweep {inv : Inventory} {policy : Policy} {now : UInt64} {ev : Eviction}
    (h : ev ∈ (inv.sweep policy now).1) : policy.verdict? ev.removed now = some ev.reason := by
  rw [sweep_eq] at h
  obtain ⟨e, -, hev⟩ := List.mem_flatMap.1 h
  obtain ⟨i, -, hverdict⟩ := List.mem_filterMap.1 hev
  obtain ⟨reason, hreason, rfl⟩ := Option.map_eq_some_iff.1 hverdict
  exact hreason

/-- What an event evicts was stored, and it may have been hidden by the event before. -/
structure Moment.Evicts (policy : Policy) (m : Moment) (ev : Eviction) (i : Instance) : Prop where
  stored : (ev.service, i) ∈ m.met.stored
  removed_eq : ev.removed = i ∨ ev.removed = i.hidden
  verdict? : policy.verdict? ev.removed m.now = some ev.reason

section

variable {policy : Policy} {m : Moment} {ev : Eviction}

theorem Moment.evicts_of_mem_sweep {f : Instance → Instance} (hf : ∀ i, f i = i ∨ f i = i.hidden)
    (h : ev ∈ ((m.met.amend f).sweep policy m.now).1) : ∃ i, m.Evicts policy ev i := by
  obtain ⟨i, hi, heq⟩ := mem_stored_amend.1 (stored_of_mem_sweep h)
  exact ⟨i, hi, heq ▸ hf i, verdict?_of_mem_sweep h⟩

theorem Moment.exists_evicts (hn : m.met.ids.Nodup) (h : ev ∈ (m.answer policy).evictions) :
    ∃ i, m.Evicts policy ev i := by
  cases haction : m.action with
  | enrol service endpoint capabilities =>
    rcases enrol_cases policy haction with ⟨-, hanswer, -⟩ | ⟨r, fs, -, -, hanswer, -⟩
    · rw [hanswer] at h
      cases h
    · rw [hanswer] at h
      cases h
  | retire id =>
    by_cases hid : id ∈ m.met.ids
    · obtain ⟨s, i, hi, rfl⟩ := mem_ids.1 hid
      simp only [answer, Event.perform, haction, retire_of_mem hn hi, attempt,
        Answer.evictions, List.not_mem_nil] at h
    · simp only [answer, Event.perform, haction, retire_of_not_mem hid, attempt,
        Answer.evictions, List.not_mem_nil] at h
  | withdraw id =>
    by_cases hid : id ∈ m.met.ids
    · obtain ⟨s, i, hi, rfl⟩ := mem_ids.1 hid
      simp only [answer, Event.perform, haction, withdraw_of_mem hn hi, attempt,
        Answer.evictions] at h
      refine evicts_of_mem_sweep (fun j => ?_) h
      unfold onlyAt
      split
      · exact .inr rfl
      · exact .inl rfl
    · simp only [answer, Event.perform, haction, withdraw_of_not_mem hid, attempt,
        Answer.evictions, List.not_mem_nil] at h
  | withdrawPorts host ports =>
    cases hany : m.met.anyListens host ports with
    | true =>
      simp only [answer, Event.perform, haction, withdrawPorts_of_any hany,
        Answer.evictions] at h
      refine evicts_of_mem_sweep (fun j => ?_) h
      split
      · exact .inr rfl
      · exact .inl rfl
    | false =>
      simp only [answer, Event.perform, haction, withdrawPorts_of_none hany, Answer.evictions,
        List.not_mem_nil] at h
  | sweep =>
    simp only [answer, Event.perform, haction, Answer.evictions] at h
    rw [← amend_self m.met] at h
    exact evicts_of_mem_sweep (fun j => .inl rfl) h
  | noteProbe id success =>
    simp only [answer, Event.perform, haction, Answer.evictions, List.not_mem_nil] at h

theorem Moment.Evicts.failures_eq {i : Instance} (h : m.Evicts policy ev i) :
    ev.removed.failures = i.failures := by
  rcases h.removed_eq with heq | heq
  · rw [heq]
  · rw [heq]
    rfl

theorem Moment.Evicts.id_eq {i : Instance} (h : m.Evicts policy ev i) :
    ev.removed.id = i.id := by
  rcases h.removed_eq with heq | heq
  · rw [heq]
  · rw [heq]
    rfl

theorem Moment.Evicts.isProbeable_eq {i : Instance} (h : m.Evicts policy ev i) :
    ev.removed.isProbeable = i.isProbeable := by
  rcases h.removed_eq with heq | heq
  · rw [heq]
  · rw [heq]
    rfl

end

end Inventory

end ServiceRegistry
