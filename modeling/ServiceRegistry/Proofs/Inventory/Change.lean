/-
  ServiceRegistry.Proofs.Inventory.Change

  The operations on instances that are there, one equation each. Where numbers are distinct
  every operation rewrites each instance on its own and then leaves some out, so its result
  is written with `amend` and `retain`; an operation on a number that is not there has no
  effect.
-/
import Mathlib.Data.List.Nodup
import ServiceRegistry.Inventory.Sweep
import ServiceRegistry.Proofs.Inventory.Instances

namespace ServiceRegistry.Inventory

/-! ## Changing one instance -/

theorem modifyFirst?_eq_some {α : Type} {p : α → Bool} {f : α → α} {xs ys : List α}
    (h : modifyFirst? p f xs = some ys) :
    ∃ older x newer, p x = true ∧ xs = older ++ x :: newer ∧ ys = older ++ f x :: newer := by
  induction xs generalizing ys with
  | nil => cases h
  | cons x xs ih =>
    unfold modifyFirst? at h
    by_cases hx : p x = true
    · rw [if_pos hx, Option.some.injEq] at h
      exact ⟨[], x, xs, hx, rfl, h.symm⟩
    · rw [if_neg hx] at h
      obtain ⟨zs, hzs, rfl⟩ := Option.map_eq_some_iff.1 h
      obtain ⟨older, y, newer, hy, rfl, rfl⟩ := ih hzs
      exact ⟨x :: older, y, newer, hy, rfl, rfl⟩

theorem modifyAmong?_eq_some {id : InstanceId} {f : Instance → Instance} {es fs : List Entry}
    (h : modifyAmong? id f es = some fs) : ∃ i, i.id = id ∧ Replaced i (f i) es fs := by
  induction es generalizing fs with
  | nil => cases h
  | cons e es ih =>
    unfold modifyAmong? Entry.modify? at h
    cases hmodify : modifyFirst? (·.id == id) f e.instances with
    | some is =>
      simp only [hmodify, Option.map_some, Option.some.injEq] at h
      obtain ⟨older, i, newer, hi, hinstances, rfl⟩ := modifyFirst?_eq_some hmodify
      exact ⟨i, by simpa using hi, [], e, es, older, newer, hinstances, rfl, h.symm⟩
    | none =>
      -- The instance is in a later entry, so this one stays as it is.
      simp only [hmodify, Option.map_none] at h
      obtain ⟨gs, hgs, rfl⟩ := Option.map_eq_some_iff.1 h
      obtain ⟨i, hi, before, d, after, older, newer, hinstances, rfl, rfl⟩ := ih hgs
      exact ⟨i, hi, e :: before, d, after, older, newer, hinstances, rfl, rfl⟩

theorem modifyAmong?_eq_none {id : InstanceId} {f : Instance → Instance} {es : List Entry}
    (h : modifyAmong? id f es = none) : ∀ e ∈ es, ∀ i ∈ e.instances, i.id ≠ id := by
  induction es with
  | nil => exact List.forall_mem_nil _
  | cons e es ih =>
    unfold modifyAmong? Entry.modify? at h
    cases hmodify : modifyFirst? (·.id == id) f e.instances with
    | some is => simp only [hmodify, Option.map_some, reduceCtorEq] at h
    | none =>
      simp only [hmodify, Option.map_none, Option.map_eq_none_iff] at h
      refine List.forall_mem_cons.2 ⟨fun i hi => ?_, ih h⟩
      simpa using modifyFirst?_eq_none.1 hmodify i hi

theorem eq_of_id_eq {inv : Inventory} (hn : inv.ids.Nodup) {s t : Service} {i j : Instance}
    (hi : (s, i) ∈ inv.stored) (hj : (t, j) ∈ inv.stored) (hid : i.id = j.id) :
    s = t ∧ i = j := by
  rw [← stored_map_id] at hn
  exact Prod.mk.inj (List.inj_on_of_nodup_map hn hi hj hid)

theorem find?_of_mem {inv : Inventory} (hn : inv.ids.Nodup) {s : Service} {i : Instance}
    (hi : (s, i) ∈ inv.stored) : inv.find? i.id = some i := by
  cases h : inv.find? i.id with
  | none =>
    have hinstance : i ∈ inv.instances := mem_instances.2 ⟨s, hi⟩
    have hne := List.find?_eq_none.1 h i hinstance
    simp at hne
  | some j =>
    -- What is found has the same number, so it is the same instance.
    obtain ⟨t, hj⟩ := mem_instances.1 (List.mem_of_find?_eq_some h)
    have hid : j.id = i.id := by simpa using List.find?_some h
    rw [(eq_of_id_eq hn hj hi hid).2]

theorem modify?_of_mem {inv : Inventory} (hn : inv.ids.Nodup) {s : Service} {i : Instance}
    (hi : (s, i) ∈ inv.stored) (f : Instance → Instance) :
    inv.modify? i.id f = some (f i, inv.amend (onlyAt i.id f)) := by
  have hfind : inv.find? i.id = some i := find?_of_mem hn hi
  cases h : modifyAmong? i.id f inv.entries with
  | none =>
    obtain ⟨e, he, -, hmem⟩ := mem_stored.1 hi
    exact absurd rfl (modifyAmong?_eq_none h e he i hmem)
  | some es =>
    -- The first instance with the number was replaced, and there is no other.
    obtain ⟨j, hid, hreplaced⟩ := modifyAmong?_eq_some h
    have hamend := hreplaced.eq_amend hn
    rw [hid] at hamend
    simp only [modify?, hfind, h, hamend]

theorem modify?_of_not_mem {inv : Inventory} {id : InstanceId} (h : id ∉ inv.ids)
    (f : Instance → Instance) : inv.modify? id f = none := by
  simp only [modify?, find?_eq_none h]

/-! ## The operations on one instance -/

section

variable {inv : Inventory} (hn : inv.ids.Nodup) {s : Service} {i : Instance}
variable (hi : (s, i) ∈ inv.stored) {id : InstanceId} (hid : id ∉ inv.ids)

include hn hi in
theorem retire_of_mem :
    inv.retire i.id = .ok (i.hidden, inv.amend (onlyAt i.id (·.hidden))) := by
  simp only [retire, modify?_of_mem hn hi]

include hid in
theorem retire_of_not_mem : inv.retire id = .error (.instanceNotFound id) := by
  simp only [retire, modify?_of_not_mem hid]

include hn hi in
theorem withdraw_of_mem (policy : Policy) (now : UInt64) :
    inv.withdraw policy i.id now
      = .ok ((inv.amend (onlyAt i.id (·.hidden))).sweep policy now) := by
  simp only [withdraw, retire_of_mem hn hi, Except.map]

include hid in
theorem withdraw_of_not_mem (policy : Policy) (now : UInt64) :
    inv.withdraw policy id now = .error (.instanceNotFound id) := by
  simp only [withdraw, retire_of_not_mem hid, Except.map]

include hn hi in
theorem noteProbe_of_mem (success : Bool) (now : UInt64) :
    inv.noteProbe i.id success now
      = (some (i.probed success now).failures,
        inv.amend (onlyAt i.id (·.probed success now))) := by
  simp only [noteProbe, modify?_of_mem hn hi]

include hid in
theorem noteProbe_of_not_mem (success : Bool) (now : UInt64) :
    inv.noteProbe id success now = (none, inv) := by
  simp only [noteProbe, modify?_of_not_mem hid]

end

theorem noteProbe_eq_amend {inv : Inventory} (hn : inv.ids.Nodup) (id : InstanceId)
    (success : Bool) (now : UInt64) :
    (inv.noteProbe id success now).2 = inv.amend (onlyAt id (·.probed success now)) := by
  by_cases hid : id ∈ inv.ids
  · obtain ⟨s, i, hi, rfl⟩ := mem_ids.1 hid
    rw [noteProbe_of_mem hn hi]
  · rw [noteProbe_of_not_mem hid, amend_onlyAt_of_not_mem _ hid]

theorem sweep_eq (inv : Inventory) (policy : Policy) (now : UInt64) :
    inv.sweep policy now
      = (inv.entries.flatMap (·.evictions policy now), inv.retain (policy.keeps now)) := rfl

theorem stored_of_mem_sweep {inv : Inventory} {policy : Policy} {now : UInt64} {ev : Eviction}
    (h : ev ∈ (inv.sweep policy now).1) : (ev.service, ev.removed) ∈ inv.stored := by
  rw [sweep_eq] at h
  obtain ⟨e, he, hev⟩ := List.mem_flatMap.1 h
  obtain ⟨i, hi, hverdict⟩ := List.mem_filterMap.1 hev
  obtain ⟨reason, -, rfl⟩ := Option.map_eq_some_iff.1 hverdict
  exact mem_stored.2 ⟨e, he, rfl, hi⟩

/-- Some instance listens on a host at one of some ports. -/
def anyListens (inv : Inventory) (host : String) (ports : List UInt16) : Bool :=
  inv.entries.any (·.instances.any (listensAt host ports))

theorem anyListens_iff {inv : Inventory} {host : String} {ports : List UInt16} :
    inv.anyListens host ports = true ↔
      ∃ i ∈ inv.instances, listensAt host ports i = true := by
  simp only [anyListens, instances, List.any_eq_true, List.mem_flatMap]
  constructor
  · rintro ⟨e, he, i, hi, h⟩
    exact ⟨i, ⟨e, he, hi⟩, h⟩
  · rintro ⟨i, ⟨e, he, hi⟩, h⟩
    exact ⟨e, he, i, hi, h⟩

theorem withdrawPorts_of_any {inv : Inventory} {host : String} {ports : List UInt16}
    (h : inv.anyListens host ports = true) (policy : Policy) (now : UInt64) :
    inv.withdrawPorts policy host ports now
      = (inv.amend fun i => if listensAt host ports i then i.hidden else i).sweep
          policy now := by
  unfold anyListens at h
  simp only [withdrawPorts, h, if_true]
  rfl

theorem withdrawPorts_of_none {inv : Inventory} {host : String} {ports : List UInt16}
    (h : inv.anyListens host ports = false) (policy : Policy) (now : UInt64) :
    inv.withdrawPorts policy host ports now = ([], inv) := by
  unfold anyListens at h
  simp only [withdrawPorts, h, Bool.false_eq_true, if_false]

end ServiceRegistry.Inventory
