/-
  ServiceRegistry.Proofs.Inventory.Registration

  What a registration does to the entries. It looks at the first entry that accepts the
  service and at no other: there it refreshes the instance at the endpoint, or adds one;
  where no entry accepts the service it opens a new one at the end. `Filed` says so case by
  case, and later proofs read the cases from it.
-/
import ServiceRegistry.Proofs.Acceptance
import ServiceRegistry.Proofs.Inventory.Instances

namespace ServiceRegistry.Inventory

/-! ## The cases of a registration -/

/-- The entries before a registration, what it answers, and the entries after it. -/
inductive Filed (id : InstanceId) (service : Service) (endpoint : Endpoint)
    (capabilities : List Capability) (now : UInt64) :
    List Entry → Enrolment → List Entry → Prop
  /-- The instance at the endpoint is refreshed. -/
  | refreshed {before after : List Entry} {e : Entry} {older newer : List Instance}
      {i : Instance}
      (hbefore : ∀ d ∈ before, d.service.accepts service = false)
      (haccepts : e.service.accepts service = true)
      (hinstances : e.instances = older ++ i :: newer)
      (hendpoint : i.endpoint = endpoint) :
      Filed id service endpoint capabilities now (before ++ e :: after)
        ⟨i.refreshed now, false⟩
        (before ++ { e with instances := older ++ i.refreshed now :: newer } :: after)
  /-- The endpoint is new to the entry. -/
  | joined {before after : List Entry} {e : Entry}
      (hbefore : ∀ d ∈ before, d.service.accepts service = false)
      (haccepts : e.service.accepts service = true)
      (hfree : ∀ i ∈ e.instances, i.endpoint ≠ endpoint) :
      Filed id service endpoint capabilities now (before ++ e :: after)
        ⟨.enrolled id endpoint capabilities now, true⟩
        (before ++
          { e with
            instances := e.instances ++ [.enrolled id endpoint capabilities now] } :: after)
  /-- No entry accepts the service. -/
  | opened {es : List Entry}
      (hnone : ∀ d ∈ es, d.service.accepts service = false) :
      Filed id service endpoint capabilities now es
        ⟨.enrolled id endpoint capabilities now, true⟩
        (es ++ [⟨service, [.enrolled id endpoint capabilities now]⟩])

section

variable {id : InstanceId} {service : Service} {endpoint : Endpoint}
variable {capabilities : List Capability} {now : UInt64} {es fs : List Entry} {r : Enrolment}

theorem modifyFirst?_append_cons {α : Type} {p : α → Bool} {f : α → α} {x : α} {xs ys : List α}
    (hxs : ∀ y ∈ xs, p y = false) (hx : p x = true) :
    modifyFirst? p f (xs ++ x :: ys) = some (xs ++ f x :: ys) := by
  induction xs with
  | nil => simp only [List.nil_append, modifyFirst?, hx, if_true]
  | cons y xs ih =>
    have hy : p y = false := hxs y List.mem_cons_self
    have hrest := ih fun z hz => hxs z (List.mem_cons_of_mem y hz)
    simp only [List.cons_append, modifyFirst?, hy, Bool.false_eq_true, if_false, hrest,
      Option.map_some]

/-- Later entries are as the cases say when an entry that does not accept the service
    stands before them. -/
theorem Filed.cons {d : Entry} (hd : d.service.accepts service = false)
    (h : Filed id service endpoint capabilities now es r fs) :
    Filed id service endpoint capabilities now (d :: es) r (d :: fs) := by
  cases h with
  | refreshed hbefore haccepts hinstances hendpoint =>
    exact .refreshed (List.forall_mem_cons.2 ⟨hd, hbefore⟩) haccepts hinstances hendpoint
  | joined hbefore haccepts hfree =>
    exact .joined (List.forall_mem_cons.2 ⟨hd, hbefore⟩) haccepts hfree
  | opened hnone => exact .opened (List.forall_mem_cons.2 ⟨hd, hnone⟩)

/-- A registration in the first of the entries, which accepts the service. -/
theorem filed_enrol {e : Entry} (haccepts : e.service.accepts service = true) :
    Filed id service endpoint capabilities now (e :: es)
      (e.enrol id endpoint capabilities now).1
      ((e.enrol id endpoint capabilities now).2 :: es) := by
  have hnil : ∀ d ∈ ([] : List Entry), d.service.accepts service = false :=
    List.forall_mem_nil _
  unfold Entry.enrol
  cases hfind : e.instances.find? (·.endpoint == endpoint) with
  | none =>
    refine Filed.joined hnil haccepts fun i hi => ?_
    simpa using List.find?_eq_none.1 hfind i hi
  | some i =>
    -- The instance found is the first at the endpoint, and so is the one refreshed.
    obtain ⟨hi, older, newer, hinstances, holder⟩ := List.find?_eq_some_iff_append.1 hfind
    have hmodify : modifyFirst? (·.endpoint == endpoint) (·.refreshed now) e.instances
        = some (older ++ i.refreshed now :: newer) := by
      rw [hinstances]
      exact modifyFirst?_append_cons (fun j hj => by simpa using holder j hj) hi
    simp only [hmodify, Option.getD_some]
    exact Filed.refreshed hnil haccepts hinstances (by simpa using hi)

theorem filed_enrolAmong :
    Filed id service endpoint capabilities now es
      (enrolAmong id service endpoint capabilities now es).1
      (enrolAmong id service endpoint capabilities now es).2 := by
  induction es with
  | nil => exact .opened (by simp)
  | cons e es ih =>
    unfold enrolAmong
    by_cases h : e.service.accepts service = true
    · -- The first entry that accepts the service decides; the others are not looked at.
      rw [if_pos h]
      exact filed_enrol h
    · rw [if_neg h]
      exact ih.cons (by simpa using h)

/-! ## What the cases have in common -/

/-- A registration that answers with an instance that was there replaces it. -/
theorem Filed.replaced (h : Filed id service endpoint capabilities now es r fs)
    (hr : r.created = false) :
    ∃ i, r.current = i.refreshed now ∧ Replaced i (i.refreshed now) es fs := by
  cases h with
  | @refreshed before after e older newer i _ _ hinstances _ =>
    exact ⟨i, rfl, before, e, after, older, newer, hinstances, rfl, rfl⟩
  | joined => cases hr
  | opened => cases hr

/-- A new instance is as announced. -/
theorem Filed.current_eq (h : Filed id service endpoint capabilities now es r fs)
    (hr : r.created = true) : r.current = .enrolled id endpoint capabilities now := by
  cases h with
  | refreshed => cases hr
  | joined => rfl
  | opened => rfl

/-- The answered instance is stored afterwards. -/
theorem Filed.current_mem (h : Filed id service endpoint capabilities now es r fs)
    (last : InstanceId) : ∃ s, (s, r.current) ∈ (Inventory.mk fs last).stored := by
  cases h with
  | @refreshed before after e older newer i _ _ _ _ =>
    refine ⟨e.service, mem_stored.2 ⟨_, List.mem_append_right _ List.mem_cons_self, rfl, ?_⟩⟩
    exact List.mem_append_right _ List.mem_cons_self
  | @joined before after e _ _ _ =>
    refine ⟨e.service, mem_stored.2 ⟨_, List.mem_append_right _ List.mem_cons_self, rfl, ?_⟩⟩
    exact List.mem_append_right _ List.mem_cons_self
  | opened =>
    refine ⟨service, mem_stored.2 ⟨_, List.mem_append_right _ List.mem_cons_self, rfl, ?_⟩⟩
    exact List.mem_cons_self

/-- A new instance is all that a registration adds, under the first service that accepts
    the announced one. -/
theorem Filed.stored_perm (h : Filed id service endpoint capabilities now es r fs)
    (hr : r.created = true) (last last' : InstanceId) :
    (Inventory.mk fs last).stored.Perm
      ((service.place (es.map (·.service)), r.current) :: (Inventory.mk es last').stored) := by
  cases h with
  | refreshed => cases hr
  | @joined before after e hbefore haccepts _ =>
    -- `e` is the first entry that accepts the service, and the new instance is its last.
    have hfind : ((before ++ e :: after).map (·.service)).find? (·.accepts service)
        = some e.service := by
      have hnone : (before.map (·.service)).find? (·.accepts service) = none := by
        refine List.find?_eq_none.2 fun s hs => ?_
        obtain ⟨d, hd, rfl⟩ := List.mem_map.1 hs
        simpa using hbefore d hd
      simp only [List.map_append, List.map_cons, List.find?_append, hnone, Option.none_or,
        List.find?_cons, haccepts]
    rw [Service.place, hfind, Option.getD_some]
    simp only [stored, List.flatMap_append, List.flatMap_cons, List.map_append, List.map_cons,
      List.map_nil, List.append_assoc, List.singleton_append]
    rw [← List.append_assoc, ← List.append_assoc]
    exact List.perm_middle
  | opened hnone =>
    -- Accepted by no entry, the service is placed under its own.
    have hfind : (es.map (·.service)).find? (·.accepts service) = none := by
      refine List.find?_eq_none.2 fun s hs => ?_
      obtain ⟨d, hd, rfl⟩ := List.mem_map.1 hs
      simpa using hnone d hd
    rw [Service.place, hfind, Option.getD_none]
    simp only [stored, List.flatMap_append, List.flatMap_cons, List.flatMap_nil, List.map_cons,
      List.map_nil, List.append_nil]
    exact List.perm_append_singleton _ _

/-- No entry goes or changes its service, and new ones stand at the end. -/
theorem Filed.services_eq (h : Filed id service endpoint capabilities now es r fs) :
    fs.map (·.service) = es.map (·.service) ∨
      (∀ d ∈ es, d.service.accepts service = false) ∧
        fs.map (·.service) = es.map (·.service) ++ [service] := by
  cases h with
  | refreshed => exact .inl (by simp only [List.map_append, List.map_cons])
  | joined => exact .inl (by simp only [List.map_append, List.map_cons])
  | opened hnone =>
    exact .inr ⟨hnone, by simp only [List.map_append, List.map_cons, List.map_nil]⟩

end

end ServiceRegistry.Inventory
