/-
  ServiceRegistry.Proofs.Inventory.Batch

  Endpoints of one service registered one after the other. All of them go into one entry: the
  first that accepts the service or, if there is none, one that the first registration opens at
  the end. `entriesFor` puts the new entry where it will be, so that both cases are one, and
  `entriesFor_after` says what a whole batch makes of the entry.

  An endpoint may occur more than once in a batch, and it may be known already. Then it is
  refreshed, last at the clock reading of its last occurrence (`renewed`). The others become
  new instances, each at its first occurrence (`newcomers`).
-/
import ServiceRegistry.Proofs.Inventory.Renewal
import ServiceRegistry.Proofs.Inventory.Visibility

namespace ServiceRegistry.Inventory

/-! ## Batches -/

/-- An endpoint to be registered, and the clock reading at which it is. -/
structure Filing where
  endpoint : Endpoint
  capabilities : List Capability
  now : UInt64

/-- The registration of an endpoint of a service. -/
def Filing.event (service : Service) (x : Filing) : Event :=
  ⟨x.now, .enrol service x.endpoint x.capabilities⟩

/-- The event registers an endpoint of a service. -/
def Event.Registers (e : Event) : Prop := ∃ (service : Service) (x : Filing), e = x.event service

theorem registers_batch (service : Service) (xs : List Filing) :
    ∀ e ∈ xs.map (·.event service), e.Registers := by
  intro e he
  obtain ⟨x, -, rfl⟩ := List.mem_map.1 he
  exact ⟨service, x, rfl⟩

/-- The clock reading of the last filing of an endpoint. -/
def lastFiling? (endpoint : Endpoint) (xs : List Filing) : Option UInt64 :=
  (xs.reverse.find? (·.endpoint == endpoint)).map (·.now)

/-- An instance after a batch: refreshed by the last filing of its endpoint, if there is one. -/
def renewed (xs : List Filing) (i : Instance) : Instance :=
  { i with lastRefresh := (lastFiling? i.endpoint xs).getD i.lastRefresh }

/-- The instances that a batch creates, as they are created, where some endpoints are known
    and a number is next. -/
def newcomers (known : List Endpoint) (next : InstanceId) : List Filing → List Instance
  | [] => []
  | x :: xs =>
    if x.endpoint ∈ known then newcomers known next xs
    else
      { id := next, endpoint := x.endpoint, capabilities := x.capabilities, disabled := false
        firstRegistered := x.now, lastSuccess := x.now, lastRefresh := x.now, failures := 0 }
        :: newcomers (known ++ [x.endpoint]) (next + 1) xs

/-- The entry that a batch goes to, after it. -/
def withBatch (next : InstanceId) (xs : List Filing) (e : Entry) : Entry :=
  { e with
    instances :=
      (e.instances ++ newcomers (e.instances.map (·.endpoint)) next xs).map (renewed xs) }

/-- The entries, with a new one at the end if none accepts the service. -/
def entriesFor (service : Service) (es : List Entry) : List Entry :=
  if es.any (·.service.accepts service) then es else es ++ [⟨service, []⟩]

/-! ## Refreshed instances -/

section

variable {x : Filing} {xs : List Filing} {i : Instance}

theorem lastFiling?_cons (endpoint : Endpoint) :
    lastFiling? endpoint (x :: xs) =
      (lastFiling? endpoint xs).or (if x.endpoint = endpoint then some x.now else none) := by
  unfold lastFiling?
  rw [List.reverse_cons, List.find?_append, Option.map_or]
  by_cases h : x.endpoint = endpoint
  · rw [if_pos h, List.find?_singleton, if_pos (beq_iff_eq.2 h), Option.map_some]
  · rw [if_neg h, List.find?_singleton, if_neg (by simpa using h), Option.map_none]

theorem renewed_nil (i : Instance) : renewed [] i = i := rfl

/-- A filing of another endpoint makes no difference. -/
theorem renewed_cons_of_ne (h : i.endpoint ≠ x.endpoint) : renewed (x :: xs) i = renewed xs i := by
  unfold renewed
  rw [lastFiling?_cons, if_neg (Ne.symm h), Option.or_none]

/-- The first filing of the endpoint counts as long as there is no other. -/
theorem renewed_cons_of_eq (h : i.endpoint = x.endpoint) :
    renewed (x :: xs) i = renewed xs (i.refreshed x.now) := by
  unfold renewed Instance.refreshed
  rw [lastFiling?_cons, if_pos h.symm]
  cases lastFiling? i.endpoint xs <;> rfl

theorem renewed_renewed (xs : List Filing) (i : Instance) :
    renewed xs (renewed [x] i) = renewed (x :: xs) i := by
  by_cases h : i.endpoint = x.endpoint
  · rw [renewed_cons_of_eq h, renewed_cons_of_eq h, renewed_nil]
  · rw [renewed_cons_of_ne h, renewed_cons_of_ne h, renewed_nil]

theorem map_renewed_cons_of_not_mem {is : List Instance}
    (h : x.endpoint ∉ is.map (·.endpoint)) :
    is.map (renewed (x :: xs)) = is.map (renewed xs) := by
  refine List.map_congr_left fun i hi => renewed_cons_of_ne fun heq => h ?_
  rw [← heq]
  exact List.mem_map_of_mem hi

/-! ## New instances -/

/-- The first filing of an endpoint that is not known enrols it. -/
theorem newcomers_cons_of_not_mem {known : List Endpoint} {next : InstanceId}
    (h : x.endpoint ∉ known) :
    newcomers known next (x :: xs) = .enrolled next x.endpoint x.capabilities x.now
      :: newcomers (known ++ [x.endpoint]) (next + 1) xs :=
  if_neg h

theorem not_mem_newcomers {known : List Endpoint} {next : InstanceId} {endpoint : Endpoint}
    (h : endpoint ∈ known) : endpoint ∉ (newcomers known next xs).map (·.endpoint) := by
  induction xs generalizing known next with
  | nil => exact List.not_mem_nil
  | cons x xs ih =>
    unfold newcomers
    split
    · exact ih h
    case isFalse hnew =>
      rw [List.map_cons, List.mem_cons, not_or]
      refine ⟨fun heq => hnew ?_, ih (List.mem_append_left _ h)⟩
      rwa [heq] at h

/-- Every endpoint of the batch is known or belongs to a new instance. -/
theorem mem_known_or_newcomers (known : List Endpoint) (next : InstanceId) (hx : x ∈ xs) :
    x.endpoint ∈ known ++ (newcomers known next xs).map (·.endpoint) := by
  induction xs generalizing known next with
  | nil => cases hx
  | cons y ys ih =>
    unfold newcomers
    split
    case isTrue hknown =>
      rcases List.mem_cons.1 hx with rfl | hx
      · exact List.mem_append_left _ hknown
      · exact ih known next hx
    case isFalse hnew =>
      rw [List.map_cons, List.append_cons]
      rcases List.mem_cons.1 hx with rfl | hx
      · exact List.mem_append_left _ (List.mem_append_right _ List.mem_cons_self)
      · exact ih (known ++ [y.endpoint]) (next + 1) hx

theorem isVisible_of_mem_newcomers {known : List Endpoint} {next : InstanceId}
    (hi : i ∈ newcomers known next xs) : i.isVisible = true := by
  induction xs generalizing known next with
  | nil => cases hi
  | cons x xs ih =>
    unfold newcomers at hi
    split at hi
    · exact ih hi
    · rcases List.mem_cons.1 hi with rfl | hi
      · rfl
      · exact ih hi

/-- New instances are numbered in order, as long as there are numbers. -/
theorem newcomers_ids (known : List Endpoint) (last : InstanceId)
    (hroom : last.toNat + (newcomers known (last + 1) xs).length < UInt64.size) :
    (newcomers known (last + 1) xs).map (·.id.toNat) =
      List.range' (last.toNat + 1) (newcomers known (last + 1) xs).length := by
  induction xs generalizing known last with
  | nil => rfl
  | cons x xs ih =>
    unfold newcomers at hroom ⊢
    split
    case isTrue hknown =>
      rw [if_pos hknown] at hroom
      exact ih known last hroom
    case isFalse hnew =>
      rw [if_neg hnew, List.length_cons] at hroom
      have hnext : (last + 1).toNat = last.toNat + 1 := toNat_succ (by omega)
      have hrest := ih (known ++ [x.endpoint]) (last + 1) (by omega)
      rw [hnext] at hrest
      rw [List.map_cons, List.length_cons, List.range'_succ, hrest]
      exact congrArg (· :: _) hnext

end

/-! ## The first of a batch -/

section

variable {e : Entry} {x : Filing} (next : InstanceId) (xs : List Filing)

theorem withBatch_nil (e : Entry) : withBatch next [] e = e := by
  have hsame : (e.instances ++ []).map (renewed []) = e.instances := by
    simp only [funext renewed_nil, List.map_id', List.append_nil]
  exact congrArg (Entry.mk e.service) hsame

/-- A known endpoint is refreshed, and the same endpoints are known for the rest. -/
theorem withBatch_cons_of_known (h : x.endpoint ∈ e.instances.map (·.endpoint)) :
    withBatch next (x :: xs) e =
      withBatch next xs { e with instances := e.instances.map (renewed [x]) } := by
  have hendpoints : (e.instances.map (renewed [x])).map (·.endpoint)
      = e.instances.map (·.endpoint) := List.map_map
  have hinstances : e.instances.map (renewed (x :: xs))
      = (e.instances.map (renewed [x])).map (renewed xs) := by
    rw [List.map_map]
    exact List.map_congr_left fun i _ => (renewed_renewed xs i).symm
  unfold withBatch
  rw [hendpoints, newcomers, if_pos h, List.map_append, List.map_append, hinstances,
    map_renewed_cons_of_not_mem (not_mem_newcomers h)]

/-- A new endpoint becomes an instance, and is known for the rest. -/
theorem withBatch_cons_of_new (h : x.endpoint ∉ e.instances.map (·.endpoint)) :
    withBatch next (x :: xs) e =
      withBatch (next + 1) xs { e with
        instances := e.instances ++ [.enrolled next x.endpoint x.capabilities x.now] } := by
  let new := Instance.enrolled next x.endpoint x.capabilities x.now
  have hendpoints : (e.instances ++ [new]).map (·.endpoint)
      = e.instances.map (·.endpoint) ++ [x.endpoint] := List.map_append
  have hknown : x.endpoint ∈ e.instances.map (·.endpoint) ++ [x.endpoint] :=
    List.mem_append_right _ List.mem_cons_self
  -- Its first filing does not refresh it, since it is enrolled with the same reading.
  have hfirst : renewed (x :: xs) new = renewed xs new := renewed_cons_of_eq rfl
  unfold withBatch
  rw [hendpoints, newcomers_cons_of_not_mem h, List.append_assoc, List.singleton_append,
    List.map_append, List.map_append, List.map_cons, List.map_cons, hfirst,
    map_renewed_cons_of_not_mem h, map_renewed_cons_of_not_mem (not_mem_newcomers hknown)]

end

/-! ## One registration -/

section

variable {id : InstanceId} {service : Service} {endpoint : Endpoint}
variable {capabilities : List Capability} {now : UInt64} {before after : List Entry} {e : Entry}

theorem enrolAmong_append_cons (hbefore : ∀ d ∈ before, d.service.accepts service = false)
    (haccepts : e.service.accepts service = true) (after : List Entry) :
    enrolAmong id service endpoint capabilities now (before ++ e :: after) =
      ((e.enrol id endpoint capabilities now).1,
        before ++ (e.enrol id endpoint capabilities now).2 :: after) := by
  induction before with
  | nil => simp only [List.nil_append, enrolAmong, haccepts, if_true]
  | cons d ds ih =>
    have hd : d.service.accepts service = false := hbefore d List.mem_cons_self
    have hrest := ih fun f hf => hbefore f (List.mem_cons_of_mem d hf)
    simp only [List.cons_append, enrolAmong, hd, Bool.false_eq_true, if_false, hrest]

theorem accepts_eq_false_of_any {es : List Entry}
    (h : ¬ es.any (·.service.accepts service) = true) :
    ∀ d ∈ es, d.service.accepts service = false := by
  intro d hd
  rw [Bool.eq_false_iff]
  exact fun haccepts => h (List.any_eq_true.2 ⟨d, hd, haccepts⟩)

variable (id service endpoint capabilities now) in
theorem enrolAmong_entriesFor (es : List Entry) :
    enrolAmong id service endpoint capabilities now (entriesFor service es) =
      enrolAmong id service endpoint capabilities now es := by
  unfold entriesFor
  split
  · rfl
  case isFalse hnone =>
    rw [enrolAmong_append_cons (accepts_eq_false_of_any hnone) service.accepts_self]
    have hall := accepts_eq_false_of_any hnone
    clear hnone
    induction es with
    | nil => rfl
    | cons d ds ih =>
      have hrest := ih fun f hf => hall f (List.mem_cons_of_mem d hf)
      simp only [List.cons_append, enrolAmong, hall d List.mem_cons_self, Bool.false_eq_true,
        if_false, ← hrest]

end

section

variable {e : Entry} {x : Filing}

/-- An endpoint that the entry knows is refreshed where it is. -/
theorem entry_enrol_known (hn : (e.instances.map (·.endpoint)).Nodup)
    (hx : x.endpoint ∈ e.instances.map (·.endpoint)) (id : InstanceId) :
    ∃ i, e.enrol id x.endpoint x.capabilities x.now =
      (⟨i, false⟩, { e with instances := e.instances.map (renewed [x]) }) := by
  obtain ⟨i, hi, hendpoint⟩ := List.mem_map.1 hx
  obtain ⟨older, newer, hinstances⟩ := List.append_of_mem hi
  have hmap : (older ++ i :: newer).map (·.endpoint)
      = older.map (·.endpoint) ++ x.endpoint :: newer.map (·.endpoint) := by
    rw [List.map_append, List.map_cons, hendpoint]
  rw [hinstances, hmap, List.nodup_middle, List.nodup_cons, List.mem_append, not_or] at hn
  obtain ⟨⟨holder, hnewer⟩, -⟩ := hn
  -- No other instance of the entry is at the endpoint.
  have hbefore : ∀ j ∈ older, (j.endpoint == x.endpoint) = false := by
    intro j hj
    rw [beq_eq_false_iff_ne]
    exact fun heq => holder (List.mem_map.2 ⟨j, hj, heq⟩)
  have hat : (i.endpoint == x.endpoint) = true := beq_iff_eq.2 hendpoint
  have hfind : e.instances.find? (·.endpoint == x.endpoint) = some i := by
    rw [hinstances]
    exact List.find?_eq_some_iff_append.2
      ⟨hat, older, newer, rfl, fun j hj => by rw [hbefore j hj]; rfl⟩
  have hmodify : modifyFirst? (·.endpoint == x.endpoint) (·.refreshed x.now) e.instances
      = some (older ++ i.refreshed x.now :: newer) := by
    rw [hinstances]
    exact modifyFirst?_append_cons hbefore hat
  have hrenewed : e.instances.map (renewed [x]) = older ++ i.refreshed x.now :: newer := by
    rw [hinstances, List.map_append, List.map_cons, map_renewed_cons_of_not_mem holder,
      map_renewed_cons_of_not_mem hnewer, renewed_cons_of_eq hendpoint]
    simp only [funext renewed_nil, List.map_id']
  refine ⟨i.refreshed x.now, ?_⟩
  rw [hrenewed]
  simp only [Entry.enrol, hfind, hmodify, Option.getD_some]

/-- An endpoint that is new to the entry becomes its last instance. -/
theorem entry_enrol_new (hx : x.endpoint ∉ e.instances.map (·.endpoint)) (id : InstanceId) :
    e.enrol id x.endpoint x.capabilities x.now =
      (⟨.enrolled id x.endpoint x.capabilities x.now, true⟩,
        { e with
          instances := e.instances ++ [.enrolled id x.endpoint x.capabilities x.now] }) := by
  have hfind : e.instances.find? (·.endpoint == x.endpoint) = none := by
    refine List.find?_eq_none.2 fun i hi heq => hx ?_
    exact List.mem_map.2 ⟨i, hi, beq_iff_eq.1 heq⟩
  simp only [Entry.enrol, hfind]

end

/-! ## A whole batch -/

section

variable {policy : Policy} {service : Service} {inv : Inventory} {x : Filing} {xs : List Filing}
variable {before after : List Entry} {e : Entry}

/-- One of the registrations, in terms of the entry that it goes to. -/
theorem perform_event (policy : Policy) (hname : service.name ≠ "")
    (hentries : entriesFor service inv.entries = before ++ e :: after)
    (hbefore : ∀ d ∈ before, d.service.accepts service = false)
    (haccepts : e.service.accepts service = true) {r : Enrolment} {e' : Entry}
    (henrol : e.enrol (inv.lastId + 1) x.endpoint x.capabilities x.now = (r, e')) :
    (x.event service).perform policy inv =
      (.enrolled (.ok r),
        ⟨before ++ e' :: after, if r.created then inv.lastId + 1 else inv.lastId⟩) := by
  have hamong := enrolAmong_entriesFor (inv.lastId + 1) service x.endpoint x.capabilities x.now
    inv.entries
  rw [hentries, enrolAmong_append_cons hbefore haccepts, henrol] at hamong
  simp only [Event.perform, Filing.event, Inventory.enrol, hname, if_false, attempt, ← hamong]

theorem entriesFor_of_accepts (before after : List Entry)
    (haccepts : e.service.accepts service = true) :
    entriesFor service (before ++ e :: after) = before ++ e :: after := by
  refine if_pos (List.any_eq_true.2 ⟨e, ?_, haccepts⟩)
  exact List.mem_append_right _ List.mem_cons_self

/-- A new entry at the end changes nothing about the others, and none of them accepts its
    service. -/
theorem Tidy.entriesFor (h : inv.Tidy) (service : Service) (last : InstanceId) :
    (Inventory.mk (Inventory.entriesFor service inv.entries) last).Tidy := by
  unfold Inventory.entriesFor
  split
  · exact ⟨h.endpoints_nodup, h.services_apart⟩
  case isFalse hnone =>
    refine ⟨fun e he => ?_, ?_⟩
    · rcases List.mem_append.1 he with he | he
      · exact h.endpoints_nodup e he
      · rw [List.mem_singleton.1 he]
        exact List.nodup_nil
    · show Service.Apart ((inv.entries ++ [Entry.mk service []]).map (·.service))
      rw [List.map_append]
      refine List.pairwise_append.2 ⟨h.services_apart, List.pairwise_singleton _ _, ?_⟩
      intro s hs t ht
      obtain ⟨d, hd, rfl⟩ := List.mem_map.1 hs
      rw [List.mem_singleton.1 ht]
      exact accepts_eq_false_of_any hnone d hd

section

variable (policy : Policy) (hname : service.name ≠ "")
variable (hentries : entriesFor service inv.entries = before ++ e :: after)
variable (hbefore : ∀ d ∈ before, d.service.accepts service = false)
variable (haccepts : e.service.accepts service = true)
include hname hentries hbefore haccepts

theorem after_event_known (hw : inv.WellFormed)
    (hknown : x.endpoint ∈ e.instances.map (·.endpoint)) :
    (Moment.mk (x.event service) inv).after policy =
      ⟨before ++ { e with instances := e.instances.map (renewed [x]) } :: after,
        inv.lastId⟩ := by
  have hmem : e ∈ entriesFor service inv.entries := by
    rw [hentries]
    exact List.mem_append_right _ List.mem_cons_self
  have hn : (e.instances.map (·.endpoint)).Nodup :=
    (hw.tidy.entriesFor service inv.lastId).endpoints_nodup e hmem
  obtain ⟨i, henrol⟩ := entry_enrol_known hn hknown (inv.lastId + 1)
  exact congrArg Prod.snd (perform_event policy hname hentries hbefore haccepts henrol)

theorem after_event_new (hnew : x.endpoint ∉ e.instances.map (·.endpoint)) :
    (Moment.mk (x.event service) inv).creates policy = true ∧
    (Moment.mk (x.event service) inv).after policy =
      ⟨before ++ { e with instances := e.instances ++
        [.enrolled (inv.lastId + 1) x.endpoint x.capabilities x.now] } :: after,
        inv.lastId + 1⟩ := by
  have hperform := perform_event policy hname hentries hbefore haccepts
    (entry_enrol_new hnew (inv.lastId + 1))
  constructor
  · simp only [Moment.creates, Moment.answer, hperform]
    rfl
  · exact congrArg Prod.snd hperform

/-- What a batch makes of the entry that it goes to. Every other entry is as before, and the
    numbers given are as many as there are new instances. -/
theorem entriesFor_after (hready : Ready policy inv (xs.map (·.event service))) :
    let inv' := Inventory.after policy inv (xs.map (·.event service))
    let e' := withBatch (inv.lastId + 1) xs e
    entriesFor service inv'.entries = before ++ e' :: after ∧
      inv'.lastId.toNat + e.instances.length = inv.lastId.toNat + e'.instances.length := by
  -- Along the batch. What is left of it meets the entry as the first registration leaves it.
  induction xs generalizing inv e with
  | nil =>
    rw [withBatch_nil]
    exact ⟨hentries, rfl⟩
  | cons x xs ih =>
    have hrest := hready.tail
    by_cases hknown : x.endpoint ∈ e.instances.map (·.endpoint)
    · have hafter := after_event_known policy hname hentries hbefore haccepts
        hready.wellFormed hknown
      rw [hafter] at hrest
      rw [List.map_cons, Inventory.after, hafter, withBatch_cons_of_known _ _ hknown]
      let e₁ : Entry := { e with instances := e.instances.map (renewed [x]) }
      have hentries₁ : entriesFor service (before ++ e₁ :: after) = before ++ e₁ :: after :=
        entriesFor_of_accepts before after haccepts
      obtain ⟨hlater, hlast⟩ := ih (e := e₁) hentries₁ haccepts hrest
      rw [List.length_map] at hlast
      exact ⟨hlater, hlast⟩
    · obtain ⟨hcreates, hafter⟩ := after_event_new policy hname hentries hbefore haccepts hknown
      have hnext : (inv.lastId + 1).toNat = inv.lastId.toNat + 1 :=
        toNat_succ (hready.head.room hcreates)
      rw [hafter] at hrest
      rw [List.map_cons, Inventory.after, hafter, withBatch_cons_of_new _ _ hknown]
      let e₁ : Entry := { e with instances :=
        e.instances ++ [.enrolled (inv.lastId + 1) x.endpoint x.capabilities x.now] }
      have hentries₁ : entriesFor service (before ++ e₁ :: after) = before ++ e₁ :: after :=
        entriesFor_of_accepts before after haccepts
      obtain ⟨hlater, hlast⟩ := ih (e := e₁) hentries₁ haccepts hrest
      rw [List.length_append, List.length_singleton, hnext, Nat.add_right_comm,
        ← Nat.add_assoc] at hlast
      exact ⟨hlater, Nat.add_right_cancel hlast⟩

end

end

/-! ## Registrations remove nothing -/

section

variable {policy : Policy} {service : Service}

theorem Replaced.size_eq {i j : Instance} {es fs : List Entry} (h : Replaced i j es fs)
    (last last' : InstanceId) : (Inventory.mk fs last).size = (Inventory.mk es last').size := by
  obtain ⟨before, e, after, older, newer, hinstances, rfl, rfl⟩ := h
  simp only [size_eq_length, instances, List.flatMap_append, List.flatMap_cons, hinstances,
    List.length_append, List.length_cons]

theorem size_after_event (policy : Policy) (service : Service) (inv : Inventory) (x : Filing) :
    ((Moment.mk (x.event service) inv).after policy).size =
      (if (Moment.mk (x.event service) inv).creates policy then 1 else 0) + inv.size := by
  let m : Moment := ⟨x.event service, inv⟩
  cases hc : m.creates policy with
  | true =>
    rw [if_pos rfl, Nat.add_comm]
    exact Moment.size_after_of_creates hc
  | false =>
    rw [if_neg Bool.false_ne_true, Nat.zero_add]
    rcases Moment.enrol_cases policy (m := m) rfl with ⟨-, -, hafter⟩ |
      ⟨r, fs, -, hfiled, hanswer, hafter⟩
    · exact congrArg size hafter
    · have hr : r.created = false := by
        simpa only [Moment.creates, hanswer, Answer.enrolment?, Option.any_some] using hc
      obtain ⟨i, -, hreplaced⟩ := hfiled.replaced hr
      exact (congrArg size hafter).trans (hreplaced.size_eq _ _)

/-- Registrations remove nothing, so the number of instances tells how many they have created. -/
theorem size_after_registrations {es : List Event} (h : ∀ e ∈ es, e.Registers) (inv : Inventory) :
    (Inventory.after policy inv es).size = creations policy inv es + inv.size := by
  induction es generalizing inv with
  | nil => exact (Nat.zero_add _).symm
  | cons e es ih =>
    obtain ⟨⟨service, x, rfl⟩, hes⟩ := List.forall_mem_cons.1 h
    have hrest := ih hes ((Moment.mk (x.event service) inv).after policy)
    rw [size_after_event] at hrest
    rw [creations_cons, Inventory.after, hrest]
    omega

theorem size_after_batch (policy : Policy) (service : Service) (inv : Inventory)
    (xs : List Filing) :
    (Inventory.after policy inv (xs.map (·.event service))).size =
      creations policy inv (xs.map (·.event service)) + inv.size :=
  size_after_registrations (registers_batch service xs) inv

/-- What has been there after registrations tells that there were numbers for all of them. -/
theorem ready_registrations {before es : List Event} (h : ∀ e ∈ es, e.Registers)
    (hroom : creations policy empty before + ((Inventory.after policy empty (before ++ es)).size
      - (Inventory.after policy empty before).size) < UInt64.size) :
    Ready policy (Inventory.after policy empty before) es := by
  have hsize : (Inventory.after policy empty (before ++ es)).size
      = creations policy (Inventory.after policy empty before) es
        + (Inventory.after policy empty before).size := by
    rw [after_append]
    exact size_after_registrations h _
  have hall : creations policy empty (before ++ es) < UInt64.size := by
    rw [creations_append]
    omega
  exact (ready_empty hall).append_right

theorem Event.Registers.ids_subset {e : Event} (h : e.Registers) (policy : Policy)
    {inv : Inventory} (hn : inv.ids.Nodup) :
    inv.ids ⊆ ((Moment.mk e inv).after policy).ids := by
  obtain ⟨service, x, rfl⟩ := h
  let m : Moment := ⟨x.event service, inv⟩
  intro id hid
  cases hc : m.creates policy with
  | true =>
    obtain ⟨_, _, _, _, hcreation⟩ := Moment.creation_of_creates hc
    exact hcreation.ids_perm.mem_iff.2 (List.mem_cons_of_mem _ hid)
  | false =>
    have hafter : m.after policy = m.met.amend (m.touch policy) :=
      (Moment.after_eq hn hc).trans (Moment.retain_spares_of_not_sweeps rfl _)
    show id ∈ (m.after policy).ids
    rw [hafter, amend_ids fun i => (Moment.sameRegistration_touch policy m i).id_eq]
    exact hid

theorem ids_subset_after_registrations {inv : Inventory} {es : List Event}
    (hready : Ready policy inv es) (h : ∀ e ∈ es, e.Registers) :
    inv.ids ⊆ (Inventory.after policy inv es).ids := by
  induction es generalizing inv with
  | nil => exact List.Subset.refl _
  | cons e es ih =>
    obtain ⟨he, hes⟩ := List.forall_mem_cons.1 h
    have hkept := he.ids_subset policy hready.wellFormed.ids_nodup
    exact List.Subset.trans hkept (ih hready.tail hes)

/-- What a registration would find is found after others. -/
theorem Houses.after_registrations {inv : Inventory} {es : List Event} {endpoint : Endpoint}
    {id : InstanceId} (h : inv.Houses service endpoint id) (hready : Ready policy inv es)
    (hes : ∀ e ∈ es, e.Registers) :
    (Inventory.after policy inv es).Houses service endpoint id :=
  h.run hready (ids_subset_after_registrations hready hes h.id_mem)

end

/-! ## What a batch has done -/

/-- What a batch has made of an inventory. All of it went to one entry, `e` before it and `e'`
    after it, where `new` are the instances created. -/
structure Batched (service : Service) (xs : List Filing) (inv inv' : Inventory)
    (before : List Entry) (e e' : Entry) (after : List Entry) (new : List Instance) : Prop where
  /-- The entry was there, or it is a new one at the end for the service as announced. -/
  entries_eq : inv.entries = before ++ e :: after ∨
    inv.entries = before ∧ e = ⟨service, []⟩ ∧ after = []
  /-- It is the first that accepts the service. -/
  first : ∀ d ∈ before, d.service.accepts service = false
  accepts : e.service.accepts service = true
  /-- All other entries are as they were. -/
  entries_after : inv'.entries = before ++ e' :: after
  service_eq : e'.service = e.service
  instances_eq : e'.instances = (e.instances ++ new).map (renewed xs)
  endpoints_nodup : (e'.instances.map (·.endpoint)).Nodup
  new_eq : new = newcomers (e.instances.map (·.endpoint)) (inv.lastId + 1) xs
  /-- The new instances have the next numbers, in order. -/
  numbered : new.map (·.id.toNat) = List.range' (inv.lastId.toNat + 1) new.length
  lastId_eq : inv'.lastId.toNat = inv.lastId.toNat + new.length
  fresh : ∀ i ∈ new, ∀ id ∈ inv.ids, id < i.id

section

variable {policy : Policy} {service : Service} {inv inv' : Inventory} {xs : List Filing}
variable {before after : List Entry} {e e' : Entry} {new : List Instance}

theorem exists_entriesFor_eq (service : Service) (es : List Entry) :
    ∃ before e after, entriesFor service es = before ++ e :: after ∧
      (∀ d ∈ before, d.service.accepts service = false) ∧ e.service.accepts service = true ∧
      (es = before ++ e :: after ∨ es = before ∧ e = ⟨service, []⟩ ∧ after = []) := by
  unfold entriesFor
  split
  case isTrue hany =>
    cases hfind : es.find? (·.service.accepts service) with
    | none =>
      obtain ⟨e, he, haccepts⟩ := List.any_eq_true.1 hany
      exact absurd haccepts (List.find?_eq_none.1 hfind e he)
    | some e =>
      obtain ⟨haccepts, before, after, rfl, hbefore⟩ := List.find?_eq_some_iff_append.1 hfind
      refine ⟨before, e, after, rfl, fun d hd => ?_, haccepts, .inl rfl⟩
      simpa using hbefore d hd
  case isFalse hnone =>
    exact ⟨es, ⟨service, []⟩, [], rfl, accepts_eq_false_of_any hnone, service.accepts_self,
      .inr ⟨rfl, rfl, rfl⟩⟩

/-- The last registration of a batch is answered with the instance where the next one of the
    same endpoint would find it. -/
theorem houses_after_last (policy : Policy) (hname : service.name ≠ "") (inv : Inventory)
    (xs : List Filing) (x : Filing) :
    let m : Moment := ⟨x.event service, Inventory.after policy inv (xs.map (·.event service))⟩
    ∃ r, m.answer policy = .enrolled (.ok r) ∧
      (Inventory.after policy inv ((xs ++ [x]).map (·.event service))).Houses service x.endpoint
        r.current.id := by
  intro m
  rcases Moment.enrol_cases policy (m := m) rfl with ⟨hempty, -, -⟩ |
    ⟨r, fs, -, hfiled, hanswer, hafter⟩
  · exact absurd hempty hname
  · refine ⟨r, hanswer, ?_⟩
    have hlast : Inventory.after policy inv ((xs ++ [x]).map (·.event service))
        = m.after policy := by
      rw [List.map_append, after_append]
      rfl
    rw [hlast, hafter]
    exact hfiled.houses _

theorem Houses.entriesFor_eq {endpoint : Endpoint} {id : InstanceId}
    (h : inv.Houses service endpoint id) : entriesFor service inv.entries = inv.entries := by
  obtain ⟨e, i, hfirst, -⟩ := h
  have haccepts : e.service.accepts service = true := by
    have hfound := List.find?_some hfirst
    exact hfound
  exact if_pos (List.any_eq_true.2 ⟨e, List.mem_of_find?_eq_some hfirst, haccepts⟩)

/-- Numbers beyond the last one given are beyond all that are stored. -/
theorem WellFormed.lt_of_lastId_lt (hw : inv.WellFormed) {next : InstanceId}
    (h : inv.lastId.toNat < next.toNat) : ∀ id ∈ inv.ids, id < next := by
  intro id hid
  obtain ⟨-, hle⟩ := hw.ids_given id hid
  rw [UInt64.le_iff_toNat_le] at hle
  rw [UInt64.lt_iff_toNat_lt]
  exact Nat.lt_of_le_of_lt hle h

theorem batched_after (hname : service.name ≠ "") (hxs : xs ≠ [])
    (hready : Ready policy inv (xs.map (·.event service))) :
    ∃ before e e' after new,
      Batched service xs inv (Inventory.after policy inv (xs.map (·.event service)))
        before e e' after new := by
  obtain ⟨before, e, after, hentries, hbefore, haccepts, hcases⟩ :=
    exists_entriesFor_eq service inv.entries
  obtain ⟨hlater, hlast⟩ := entriesFor_after policy hname hentries hbefore haccepts hready
  let new := newcomers (e.instances.map (·.endpoint)) (inv.lastId + 1) xs
  let e' := withBatch (inv.lastId + 1) xs e
  have hlength : e'.instances.length = e.instances.length + new.length := by
    show ((e.instances ++ new).map (renewed xs)).length = _
    rw [List.length_map, List.length_append]
  have hcount : (Inventory.after policy inv (xs.map (·.event service))).lastId.toNat
      = inv.lastId.toNat + new.length := by
    rw [hlength] at hlast
    omega
  have hroom : inv.lastId.toNat + new.length < UInt64.size := by
    rw [← hcount]
    exact UInt64.toNat_lt_size _
  have hnumbered := newcomers_ids (e.instances.map (·.endpoint)) inv.lastId hroom
  have hopened : entriesFor service
      (Inventory.after policy inv (xs.map (·.event service))).entries
        = (Inventory.after policy inv (xs.map (·.event service))).entries := by
    obtain ⟨r, -, hhouses⟩ :=
      houses_after_last policy hname inv xs.dropLast (xs.getLast hxs)
    rw [List.dropLast_append_getLast hxs] at hhouses
    exact hhouses.entriesFor_eq
  rw [hopened] at hlater
  refine ⟨before, e, e', after, new, hcases, hbefore, haccepts, hlater, rfl, rfl, ?_, rfl,
    hnumbered, hcount, fun i hi => hready.wellFormed.lt_of_lastId_lt ?_⟩
  · refine hready.wellFormed_after.endpoints_nodup e' ?_
    rw [hlater]
    exact List.mem_append_right _ List.mem_cons_self
  · have hmem : i.id.toNat ∈ List.range' (inv.lastId.toNat + 1) new.length := by
      rw [← hnumbered]
      exact List.mem_map_of_mem hi
    exact (List.mem_range'_1.1 hmem).1

section

variable (h : Batched service xs inv inv' before e e' after new)
include h

/-- All endpoints of a batch have an instance in its entry. -/
theorem Batched.exists_instance {x : Filing} (hx : x ∈ xs) :
    ∃ i ∈ e'.instances, i.endpoint = x.endpoint := by
  have hendpoints : e'.instances.map (·.endpoint)
      = e.instances.map (·.endpoint) ++ new.map (·.endpoint) := by
    rw [h.instances_eq, List.map_map, ← List.map_append]
    rfl
  have hmem := mem_known_or_newcomers (e.instances.map (·.endpoint)) (inv.lastId + 1) hx
  rw [← h.new_eq, ← hendpoints] at hmem
  exact List.mem_map.1 hmem

theorem Batched.isVisible (hshown : inv.AllVisible) {i : Instance} (hi : i ∈ e'.instances) :
    i.isVisible = true := by
  rw [h.instances_eq] at hi
  obtain ⟨j, hj, rfl⟩ := List.mem_map.1 hi
  show j.isVisible = true
  rcases List.mem_append.1 hj with hj | hj
  · rcases h.entries_eq with hentries | ⟨-, rfl, -⟩
    · refine hshown j (List.mem_flatMap.2 ⟨e, ?_, hj⟩)
      rw [hentries]
      exact List.mem_append_right _ List.mem_cons_self
    · cases hj
  · rw [h.new_eq] at hj
    exact isVisible_of_mem_newcomers hj

theorem Batched.find?_eq : inv'.entries.find? (·.service.accepts service) = some e' := by
  have haccepts : e'.service.accepts service = true := by
    rw [h.service_eq]
    exact h.accepts
  rw [h.entries_after]
  exact find?_append_cons_of_none h.first e' after haccepts

end

end

end ServiceRegistry.Inventory
