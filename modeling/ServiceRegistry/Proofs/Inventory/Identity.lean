/-
  ServiceRegistry.Proofs.Inventory.Identity

  What a number means. From the registration that gives it out a number stands for one
  service, endpoint, set of capabilities and time of registration; when its instance has
  gone the number is spent, and no view and no answer shows it again. What is registered
  later, even at the same endpoint of the same service, gets a larger number.

  Two facts about one event carry all of this: an instance stored afterwards was there
  before or has a number beyond the last one given, and that last number never decreases.
-/
import ServiceRegistry.Resolution
import ServiceRegistry.Proofs.Inventory.WellFormed

namespace ServiceRegistry.Inventory

/-! ## One event -/

section

variable {policy : Policy} {m : Moment}

/-- What is stored after an event that creates nothing was there before. -/
theorem Moment.mem_stored_of_not_creates (hw : m.met.WellFormed) (hc : m.creates policy = false)
    {s : Service} {j : Instance} (hj : (s, j) ∈ (m.after policy).stored) :
    ∃ i, (s, i) ∈ m.met.stored ∧ SameRegistration i j := by
  -- Rewritten from an instance that was there, which it shares its registration with.
  rw [Moment.after_eq hw.ids_nodup hc, mem_stored_retain, mem_stored_amend] at hj
  obtain ⟨⟨i, hi, rfl⟩, -⟩ := hj
  exact ⟨i, hi, Moment.sameRegistration_touch policy m i⟩

/-- An instance stored after an event was there before, or its number is beyond all that
    were given. -/
theorem Moment.Sound.mem_stored (h : m.Sound policy) {s : Service} {j : Instance}
    (hj : (s, j) ∈ (m.after policy).stored) :
    m.met.lastId < j.id ∨ ∃ i, (s, i) ∈ m.met.stored ∧ SameRegistration i j := by
  cases hc : m.creates policy with
  | true =>
    obtain ⟨_, _, _, i, hcreation⟩ := Moment.creation_of_creates hc
    rcases List.mem_cons.1 (hcreation.stored_perm.mem_iff.1 hj) with heq | hj
    · left
      rw [(Prod.mk.inj heq).2]
      exact h.lastId_lt hcreation
    · exact .inr ⟨j, hj, .refl j⟩
  | false => exact .inr (Moment.mem_stored_of_not_creates h.wellFormed hc hj)

theorem Moment.Sound.mem_ids (h : m.Sound policy) {id : InstanceId}
    (hid : id ∈ (m.after policy).ids) : m.met.lastId < id ∨ id ∈ m.met.ids := by
  obtain ⟨s, j, hj, rfl⟩ := Inventory.mem_ids.1 hid
  rcases h.mem_stored hj with hlt | ⟨i, hi, hsame⟩
  · exact .inl hlt
  · right
    rw [hsame.id_eq]
    exact id_mem_ids hi

theorem mem_ids_of_mem_evictions {inv : Inventory} {f : Instance → Instance}
    (hf : ∀ i, (f i).id = i.id) {now : UInt64} {id : InstanceId}
    (h : id ∈ ((inv.amend f).sweep policy now).1.map (·.removed.id)) : id ∈ inv.ids := by
  obtain ⟨ev, hev, rfl⟩ := List.mem_map.1 h
  rw [← amend_ids hf]
  exact id_mem_ids (stored_of_mem_sweep hev)

/-- An answer shows no instances but those that were there before the event or are there
    after it. -/
theorem Moment.mem_ids_of_mem_answer (hn : m.met.ids.Nodup) {id : InstanceId}
    (h : id ∈ (m.answer policy).ids) : id ∈ m.met.ids ∨ id ∈ (m.after policy).ids := by
  cases haction : m.action with
  | enrol service endpoint capabilities =>
    right
    rcases enrol_cases policy haction with ⟨-, hanswer, -⟩ | ⟨r, fs, -, hfiled, hanswer, hafter⟩
    · rw [hanswer] at h
      cases h
    · rw [hanswer] at h
      rw [List.mem_singleton.1 h, hafter]
      obtain ⟨s, hcurrent⟩ := hfiled.current_mem (if r.created then m.met.lastId + 1
        else m.met.lastId)
      exact id_mem_ids hcurrent
  | retire target =>
    left
    by_cases hmem : target ∈ m.met.ids
    · obtain ⟨s, i, hi, rfl⟩ := Inventory.mem_ids.1 hmem
      simp only [answer, Event.perform, haction, retire_of_mem hn hi, attempt, Answer.ids] at h
      rw [List.mem_singleton.1 h, (sameRegistration_hidden i).id_eq]
      exact id_mem_ids hi
    · simp only [answer, Event.perform, haction, retire_of_not_mem hmem, attempt,
        Answer.ids] at h
      cases h
  | withdraw target =>
    left
    by_cases hmem : target ∈ m.met.ids
    · obtain ⟨s, i, hi, rfl⟩ := Inventory.mem_ids.1 hmem
      simp only [answer, Event.perform, haction, withdraw_of_mem hn hi, attempt, Answer.ids] at h
      have hsame : ∀ j : Instance, (onlyAt i.id (·.hidden) j).id = j.id :=
        fun j => (sameRegistration_onlyAt sameRegistration_hidden i.id j).id_eq
      exact mem_ids_of_mem_evictions hsame h
    · simp only [answer, Event.perform, haction, withdraw_of_not_mem hmem, attempt,
        Answer.ids] at h
      cases h
  | withdrawPorts host ports =>
    left
    cases hany : m.met.anyListens host ports with
    | true =>
      simp only [answer, Event.perform, haction, withdrawPorts_of_any hany, Answer.ids] at h
      refine mem_ids_of_mem_evictions (fun j => ?_) h
      split <;> rfl
    | false =>
      simp only [answer, Event.perform, haction, withdrawPorts_of_none hany, Answer.ids,
        List.map_nil] at h
      cases h
  | sweep =>
    left
    simp only [answer, Event.perform, haction, Answer.ids] at h
    obtain ⟨ev, hev, rfl⟩ := List.mem_map.1 h
    exact id_mem_ids (stored_of_mem_sweep hev)
  | noteProbe target success =>
    simp only [answer, Event.perform, haction, Answer.ids] at h
    cases h

end

/-! ## Numbers given out -/

section

variable {policy : Policy} {inv : Inventory} {es : List Event}

theorem Ready.lastId_le (h : Ready policy inv es) : inv.lastId ≤ (after policy inv es).lastId := by
  refine h.after_induction (P := fun later => inv.lastId ≤ later.lastId) ?_ ?_
  · exact UInt64.le_refl _
  · intro m hm hle
    exact UInt64.le_trans hle hm.lastId_le

/-- No number that a run shows is beyond the last one given at its end. -/
theorem Ready.id_le_lastId (h : Ready policy inv es) {m : Moment}
    (hm : m ∈ history policy inv es) {id : InstanceId}
    (hid : id ∈ m.met.ids ∨ id ∈ (m.answer policy).ids) :
    id ≤ (after policy inv es).lastId := by
  -- Along the run up to the event; from there on the last number given only grows.
  induction es generalizing inv with
  | nil => cases hm
  | cons e es ih =>
    rcases List.mem_cons.1 hm with rfl | hm
    · have hmet : id ∈ inv.ids → id ≤ (after policy inv (e :: es)).lastId :=
        fun hmem => UInt64.le_trans (h.wellFormed.ids_given id hmem).2 h.lastId_le
      rcases hid with hmem | hanswer
      · exact hmet hmem
      · rcases Moment.mem_ids_of_mem_answer h.wellFormed.ids_nodup hanswer with hmem | hafter
        · exact hmet hmem
        · exact UInt64.le_trans (h.tail.wellFormed.ids_given id hafter).2 h.tail.lastId_le
    · exact ih h.tail hm

end

/-! ## What a number stands for -/

/-- Whatever is stored under the number of the instance `i` is `i`, under the service `s`,
    up to what may change after the registration. -/
structure Bears (inv : Inventory) (s : Service) (i : Instance) : Prop where
  given : i.id ≤ inv.lastId
  unique : ∀ t j, (t, j) ∈ inv.stored → j.id = i.id → t = s ∧ SameRegistration i j

section

variable {policy : Policy} {m : Moment} {s : Service} {i : Instance}

theorem bears_of_mem {inv : Inventory} (hw : inv.WellFormed) (hi : (s, i) ∈ inv.stored) :
    inv.Bears s i where
  given := (hw.ids_given i.id (id_mem_ids hi)).2
  unique := by
    intro t j hj hid
    obtain ⟨rfl, rfl⟩ := eq_of_id_eq hw.ids_nodup hj hi hid
    exact ⟨rfl, .refl j⟩

theorem Bears.after (h : m.met.Bears s i) (hm : m.Sound policy) :
    (m.after policy).Bears s i where
  given := UInt64.le_trans h.given hm.lastId_le
  unique := by
    intro t j hj hid
    rcases hm.mem_stored hj with hlt | ⟨k, hk, hsame⟩
    · -- The number was given long ago, so the instance is not new.
      rw [hid] at hlt
      exact absurd (UInt64.lt_of_lt_of_le hlt h.given) (UInt64.lt_irrefl _)
    · obtain ⟨hservice, hik⟩ := h.unique t k hk (hsame.id_eq.symm.trans hid)
      exact ⟨hservice, hik.trans hsame⟩

/-! ## Spent numbers -/

/-- A number that was given out and whose instance has gone. -/
structure Spent (inv : Inventory) (id : InstanceId) : Prop where
  given : id ≤ inv.lastId
  gone : id ∉ inv.ids

variable {id : InstanceId}

theorem Spent.after (h : m.met.Spent id) (hm : m.Sound policy) : (m.after policy).Spent id where
  given := UInt64.le_trans h.given hm.lastId_le
  gone := by
    intro hid
    -- It would be new, and so beyond all numbers given, or it was there before.
    rcases hm.mem_ids hid with hlt | hmem
    · exact UInt64.lt_irrefl _ (UInt64.lt_of_lt_of_le hlt h.given)
    · exact h.gone hmem

theorem Spent.not_mem_answer (h : m.met.Spent id) (hm : m.Sound policy) :
    id ∉ (m.answer policy).ids := by
  intro hanswer
  rcases Moment.mem_ids_of_mem_answer hm.wellFormed.ids_nodup hanswer with hmem | hafter
  · exact h.gone hmem
  · exact (h.after hm).gone hafter

/-- A spent number stays spent, and no answer shows it. -/
theorem Spent.run {inv : Inventory} {es : List Event} (h : inv.Spent id)
    (hready : Ready policy inv es) :
    (Inventory.after policy inv es).Spent id ∧
      ∀ m ∈ history policy inv es, id ∉ (m.answer policy).ids := by
  -- Each event meets the number spent, does not show it, and leaves it spent.
  induction es generalizing inv with
  | nil => exact ⟨h, List.forall_mem_nil _⟩
  | cons e es ih =>
    have hhead : (Moment.mk e inv).met.Spent id := h
    obtain ⟨hspent, hanswers⟩ := ih (hhead.after hready.head) hready.tail
    exact ⟨hspent, List.forall_mem_cons.2 ⟨hhead.not_mem_answer hready.head, hanswers⟩⟩

end

/-- Nothing that can be asked about an inventory shows a number. -/
structure Unseen (policy : Policy) (inv : Inventory) (id : InstanceId) : Prop where
  stored : id ∉ inv.ids
  listing : ∀ name, ∀ e ∈ inv.listing name, ∀ i ∈ e.instances, i.id ≠ id
  lookup : ∀ service, ∀ e ∈ inv.lookup service, ∀ i ∈ e.instances, i.id ≠ id
  targets : ∀ query, ∀ t ∈ inv.targets query, t.2.id ≠ id
  candidates : ∀ c ∈ inv.candidates, c.id ≠ id
  condition : ∀ now, inv.conditionOf policy id now = none

theorem unseen_of_not_mem {inv : Inventory} {id : InstanceId} (policy : Policy)
    (h : id ∉ inv.ids) : inv.Unseen policy id := by
  have hentry : ∀ e ∈ inv.entries, ∀ i ∈ e.instances, i.id ≠ id := by
    intro e he i hi hid
    exact h (mem_ids.2 ⟨e.service, i, mem_stored.2 ⟨e, he, rfl, hi⟩, hid⟩)
  have hvisible : ∀ e ∈ inv.entries, ∀ i ∈ e.visible.instances, i.id ≠ id :=
    fun e he i hi => hentry e he i (List.mem_filter.1 hi).1
  refine ⟨h, ?_, ?_, ?_, ?_, ?_⟩
  · intro name e he i hi
    obtain ⟨he, -⟩ := List.mem_filter.1 he
    obtain ⟨d, hd, rfl⟩ := List.mem_map.1 he
    exact hvisible d (List.mem_filter.1 hd).1 i hi
  · intro service e he i hi
    obtain ⟨d, hd, rfl⟩ := List.mem_map.1 he
    exact hvisible d (List.mem_filter.1 hd).1 i hi
  · intro query t ht
    obtain ⟨e, he, ht⟩ := List.mem_flatMap.1 ht
    obtain ⟨i, hi, rfl⟩ := List.mem_map.1 ht
    exact hentry e (List.mem_filter.1 he).1 i (List.mem_filter.1 hi).1
  · intro c hc
    obtain ⟨e, he, hc⟩ := List.mem_flatMap.1 hc
    obtain ⟨i, hi, rfl⟩ := List.mem_map.1 hc
    exact hentry e he i (List.mem_filter.1 hi).1
  · intro now
    simp only [conditionOf, find?_eq_none h, Option.map_none]

/-! ## The life of an instance -/

/-- An instance that an event of a run creates keeps its service and everything fixed by its
    registration for as long as it is stored. From the moment it is gone, no later state and
    no later answer shows its number. The number is larger than all that were shown before,
    whatever was registered and removed then. -/
theorem life_of_created (policy : Policy) (before following : List Event) (e : Event)
    (i : Instance)
    (hcreated :
      ((Moment.mk e (after policy empty before)).answer policy).enrolment? = some ⟨i, true⟩)
    (hroom : creations policy empty (before ++ e :: following) < UInt64.size) :
    (∃ s, (s, i) ∈ (after policy empty (before ++ [e])).stored ∧
      ∀ es, es <+: following → ∀ t j, (t, j) ∈ (after policy empty (before ++ e :: es)).stored →
        j.id = i.id → t = s ∧ SameRegistration i j) ∧
    (∀ es rest, following = es ++ rest → i.id ∉ (after policy empty (before ++ e :: es)).ids →
      (∀ more, more <+: rest →
        (after policy empty (before ++ e :: es ++ more)).Unseen policy i.id) ∧
      ∀ m ∈ history policy (after policy empty (before ++ e :: es)) rest,
        i.id ∉ (m.answer policy).ids) ∧
    (∀ m ∈ history policy empty before, ∀ id,
      id ∈ m.met.ids ∨ id ∈ (m.answer policy).ids → id < i.id) := by
  have hready := ready_empty hroom
  have hbefore : Ready policy empty before := hready.append_left
  have hrun : Ready policy (after policy empty before) (e :: following) := hready.append_right
  obtain ⟨_, _, _, hcreation⟩ := Moment.creation_of_enrolment? hcreated
  obtain ⟨s, hstored⟩ :
      ∃ s, (s, i) ∈ ((Moment.mk e (after policy empty before)).after policy).stored :=
    ⟨_, hcreation.stored_perm.mem_iff.2 List.mem_cons_self⟩
  have hbears := bears_of_mem hrun.tail.wellFormed hstored
  -- Every later state is reached from the one right after the creation.
  have hlater : ∀ es, after policy empty (before ++ e :: es)
      = after policy ((Moment.mk e (after policy empty before)).after policy) es :=
    fun es => after_append policy empty before (e :: es)
  refine ⟨⟨s, ?_, ?_⟩, ?_, ?_⟩
  · rw [hlater]
    exact hstored
  · -- As long as it is stored: `Bears` is kept from the creation on.
    rintro es ⟨rest, rfl⟩
    rw [hlater]
    have hkept := hrun.tail.append_left.after_induction (P := fun inv => inv.Bears s i) hbears
      fun m hm h => Bears.after h hm
    exact hkept.unique
  · -- Once it is gone: its number is spent and stays so.
    rintro es rest rfl hgone
    have hrest : Ready policy (after policy empty (before ++ e :: es)) rest := by
      rw [hlater]
      exact hrun.tail.append_right
    have hspent : (after policy empty (before ++ e :: es)).Spent i.id := by
      refine ⟨?_, hgone⟩
      rw [hlater]
      exact UInt64.le_trans hbears.given hrun.tail.append_left.lastId_le
    refine ⟨?_, (hspent.run hrest).2⟩
    rintro more ⟨others, rfl⟩
    rw [after_append]
    exact unseen_of_not_mem policy (hspent.run hrest.append_left).1.gone
  · -- Before it was there: all numbers shown were given, and its own is the next.
    intro m hm id hid
    exact UInt64.lt_of_le_of_lt (hbefore.id_le_lastId hm hid) (hrun.head.lastId_lt hcreation)

/-- An instance withdrawn, registered again at its endpoint and probed under its old number. -/
theorem life_of_created_again :
    let kv : Action := .enrol ⟨"kv", none⟩ ⟨"10.0.0.5", 9000⟩ [.tcp]
    let before : List Event := [⟨1000, kv⟩, ⟨2000, .withdraw 1⟩]
    let following : List Event := [⟨3500, .retire 2⟩, ⟨3600, .sweep⟩, ⟨3700, .noteProbe 2 true⟩]
    let i : Instance := .enrolled 2 ⟨"10.0.0.5", 9000⟩ [.tcp] 3000
    ((Moment.mk ⟨3000, kv⟩ (after {} empty before)).answer {}).enrolment? = some ⟨i, true⟩ ∧
      creations {} empty (before ++ ⟨3000, kv⟩ :: following) < UInt64.size ∧
      (∃ m ∈ history {} empty before, 1 ∈ (m.answer {}).ids ∧ (1 : InstanceId) < i.id) ∧
      (after {} empty (before ++ ⟨3000, kv⟩ :: following)).Unseen {} i.id := by
  intro kv before following i
  have hcreated : ((Moment.mk ⟨3000, kv⟩ (after {} empty before)).answer {}).enrolment?
      = some ⟨i, true⟩ := by
    decide +kernel
  have hroom : creations {} empty (before ++ ⟨3000, kv⟩ :: following) < UInt64.size := by
    decide +kernel
  obtain ⟨-, hgone, hlarger⟩ :=
    life_of_created {} before following ⟨3000, kv⟩ i hcreated hroom
  refine ⟨hcreated, hroom, ?_, ?_⟩
  · refine ⟨⟨⟨1000, kv⟩, empty⟩, List.mem_cons_self, by decide, ?_⟩
    exact hlarger _ List.mem_cons_self 1 (.inr (by decide))
  · have habsent : i.id ∉ (after {} empty (before ++ ⟨3000, kv⟩ ::
        [⟨3500, .retire 2⟩, ⟨3600, .sweep⟩])).ids := by decide
    have hrest := hgone [⟨3500, .retire 2⟩, ⟨3600, .sweep⟩] [⟨3700, .noteProbe 2 true⟩] rfl habsent
    exact hrest.1 [⟨3700, .noteProbe 2 true⟩] (List.prefix_refl _)

end ServiceRegistry.Inventory
