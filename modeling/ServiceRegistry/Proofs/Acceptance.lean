/-
  ServiceRegistry.Proofs.Acceptance

  When services accept each other, and what follows for services of which none accepts
  another. Accepting is reflexive and symmetric, but a service without a deploy path
  accepts every service of its name, so it is not transitive. Among services that are
  apart, one without a deploy path is the only one of its name, and those with a deploy
  path have different ones. So the first service of a name decides whether services of this
  name have deploy paths at all.
-/
import ServiceRegistry.Service

namespace ServiceRegistry.Service

/-! ## Two services -/

theorem name_eq_of_accepts {a b : Service} (h : a.accepts b = true) : a.name = b.name := by
  simp only [accepts, Bool.and_eq_true, beq_iff_eq] at h
  exact h.1

theorem accepts_of_path?_eq_none {a b : Service} (hname : a.name = b.name)
    (ha : a.path? = none) : a.accepts b = true := by
  simp only [accepts, hname, BEq.rfl, ha, Bool.and_true]

theorem accepts_iff_of_paths {a b : Service} {p q : String} (ha : a.path? = some p)
    (hb : b.path? = some q) : a.accepts b = true ↔ a.name = b.name ∧ p = q := by
  simp only [accepts, ha, hb, Bool.and_eq_true, beq_iff_eq]

/-- An empty deploy path says no more than an absent one. -/
theorem path?_eq_some_iff {s : Service} {p : String} :
    s.path? = some p ↔ s.deployPath = some p ∧ p ≠ "" := by
  simp only [path?, Option.filter_eq_some_iff, decide_eq_true_eq]

theorem ne_empty_of_path? {s : Service} {p : String} (h : s.path? = some p) : p ≠ "" :=
  (path?_eq_some_iff.1 h).2

theorem path?_of_ne_empty (name : String) {p : String} (h : p ≠ "") :
    (Service.mk name (some p)).path? = some p :=
  path?_eq_some_iff.2 ⟨rfl, h⟩

/-- The names agree, and so do the deploy paths unless one of them is absent or empty. -/
theorem accepts_iff {a b : Service} :
    a.accepts b = true ↔ a.name = b.name ∧
      (a.deployPath.getD "" = "" ∨ b.deployPath.getD "" = "" ∨ a.deployPath = b.deployPath) := by
  have hnone : ∀ {s : Service}, s.path? = none ↔ s.deployPath.getD "" = "" := by
    rintro ⟨name, _ | p⟩ <;> simp [path?]
  rw [← hnone, ← hnone]
  cases ha : a.path? with
  | none => simp [accepts, ha]
  | some p =>
    cases hb : b.path? with
    | none => simp [accepts, ha, hb]
    | some q =>
      rw [accepts_iff_of_paths ha hb, (path?_eq_some_iff.1 ha).1, (path?_eq_some_iff.1 hb).1]
      simp

/-- Services that accept one with a deploy path accept each other. -/
theorem accepts_of_accepts_path {a b q : Service} {p : String} (hq : q.path? = some p)
    (ha : a.accepts q = true) (hb : b.accepts q = true) : a.accepts b = true := by
  have hname : a.name = b.name := (name_eq_of_accepts ha).trans (name_eq_of_accepts hb).symm
  cases hpa : a.path? with
  | none => exact accepts_of_path?_eq_none hname hpa
  | some pa =>
    cases hpb : b.path? with
    | none =>
      rw [accepts_comm]
      exact accepts_of_path?_eq_none hname.symm hpb
    | some pb =>
      -- Both have the deploy path of `q`, for want of which accepting is not transitive.
      have hpa' := ((accepts_iff_of_paths hpa hq).1 ha).2
      have hpb' := ((accepts_iff_of_paths hpb hq).1 hb).2
      exact (accepts_iff_of_paths hpa hpb).2 ⟨hname, hpa'.trans hpb'.symm⟩

/-! ## Services that are apart -/

/-- No service accepts another that stands after it. -/
abbrev Apart (services : List Service) : Prop :=
  services.Pairwise fun s t => s.accepts t = false

/-- A service without a deploy path is the only one of its name. -/
theorem Apart.eq_singleton {services : List Service} (h : Apart services) {name : String}
    (hname : ∀ s ∈ services, s.name = name) {s : Service} (hs : s ∈ services)
    (hpath : s.path? = none) : services = [s] := by
  obtain ⟨before, after, rfl⟩ := List.append_of_mem hs
  have hsname := hname s hs
  obtain ⟨-, hright, hleft⟩ := List.pairwise_append.1 h
  have haccepts : ∀ t ∈ before ++ s :: after, s.accepts t = true :=
    fun t ht => accepts_of_path?_eq_none (hsname.trans (hname t ht).symm) hpath
  -- A service on either side would be accepted by `s`, against the assumption.
  have hbefore : before = [] := by
    cases before with
    | nil => rfl
    | cons t ts =>
      have hfalse := hleft t List.mem_cons_self s List.mem_cons_self
      rw [accepts_comm, haccepts t (List.mem_append_left _ List.mem_cons_self)] at hfalse
      cases hfalse
  have hafter : after = [] := by
    cases after with
    | nil => rfl
    | cons t ts =>
      have hfalse := (List.pairwise_cons.1 hright).1 t List.mem_cons_self
      rw [haccepts t (List.mem_append_right _ (List.mem_cons_of_mem _ List.mem_cons_self))]
        at hfalse
      cases hfalse
  rw [hbefore, hafter, List.nil_append]

/-- Services of one name are one without a deploy path, or have different deploy paths. -/
theorem Apart.one_or_paths {services : List Service} (h : Apart services) {name : String}
    (hname : ∀ s ∈ services, s.name = name) :
    (∃ s, services = [s] ∧ s.path? = none) ∨
      (∀ s ∈ services, ∃ p, p ≠ "" ∧ s.path? = some p) ∧ (services.map (·.path?)).Nodup := by
  by_cases hnone : ∃ s ∈ services, s.path? = none
  · -- The one without a path accepts the others, so there are none.
    obtain ⟨s, hs, hpath⟩ := hnone
    exact .inl ⟨s, h.eq_singleton hname hs hpath, hpath⟩
  · have hsome : ∀ s ∈ services, ∃ p, s.path? = some p := by
      intro s hs
      cases hpath : s.path? with
      | none => exact absurd ⟨s, hs, hpath⟩ hnone
      | some p => exact ⟨p, rfl⟩
    refine .inr ⟨fun s hs => ?_, ?_⟩
    · obtain ⟨p, hpath⟩ := hsome s hs
      exact ⟨p, ne_empty_of_path? hpath, hpath⟩
    · -- Two of them with the same deploy path would accept each other.
      refine List.pairwise_map.2 (List.Pairwise.imp_of_mem ?_ h)
      intro s t hs ht hfalse heq
      obtain ⟨p, hp⟩ := hsome s hs
      have haccepts : s.accepts t = true := by
        rw [accepts_iff_of_paths hp (heq ▸ hp)]
        exact ⟨(hname s hs).trans (hname t ht).symm, rfl⟩
      rw [haccepts] at hfalse
      cases hfalse

/-- At most one of them accepts a service with a deploy path. -/
theorem Apart.length_filter_le_one {services : List Service} (h : Apart services) {q : Service}
    {p : String} (hq : q.path? = some p) :
    (services.filter (·.accepts q)).length ≤ 1 := by
  have hfilter : Apart (services.filter (·.accepts q)) := h.filter _
  have haccepts : ∀ s ∈ services.filter (·.accepts q), s.accepts q = true :=
    fun s hs => (List.mem_filter.1 hs).2
  generalize services.filter (·.accepts q) = accepting at hfilter haccepts ⊢
  cases accepting with
  | nil => exact Nat.zero_le 1
  | cons s rest =>
    cases rest with
    | nil => exact Nat.le_refl 1
    | cons t rest =>
      -- Two services that accept `q` accept each other.
      have hfalse := (List.pairwise_cons.1 hfilter).1 t List.mem_cons_self
      have hs := haccepts s List.mem_cons_self
      have ht := haccepts t (List.mem_cons_of_mem _ List.mem_cons_self)
      rw [accepts_of_accepts_path hq hs ht] at hfalse
      cases hfalse

/-! ## The first of a name -/

/-- The first of some services that accepts a service, or this service itself. -/
def place (service : Service) (services : List Service) : Service :=
  (services.find? (·.accepts service)).getD service

theorem name_place (service : Service) (services : List Service) :
    (service.place services).name = service.name := by
  unfold place
  cases hfind : services.find? (·.accepts service) with
  | none => rfl
  | some s =>
    have haccepts := List.find?_some hfind
    exact name_eq_of_accepts haccepts

theorem find?_accepts_of_path?_eq_none (services : List Service) {service : Service}
    (h : service.path? = none) :
    services.find? (·.accepts service) = services.find? (·.name == service.name) := by
  congr 1
  funext s
  rw [Bool.eq_iff_iff, beq_iff_eq]
  constructor
  · exact name_eq_of_accepts
  · intro hname
    rw [accepts_comm]
    exact accepts_of_path?_eq_none hname.symm h

/-- A service without a deploy path is every one of its name. -/
theorem Apart.eq_of_path?_eq_none {services : List Service} (h : Apart services)
    {s t : Service} (hs : s ∈ services) (ht : t ∈ services) (hname : s.name = t.name)
    (hpath : t.path? = none) : s = t := by
  -- Both are among the services of that name, and `t` is the only one of them.
  have hall : ∀ u ∈ services.filter (·.name == t.name), u.name = t.name :=
    fun u hu => by simpa using (List.mem_filter.1 hu).2
  have hmem : t ∈ services.filter (·.name == t.name) :=
    List.mem_filter.2 ⟨ht, by simp only [BEq.rfl]⟩
  have hs' : s ∈ services.filter (·.name == t.name) :=
    List.mem_filter.2 ⟨hs, by simpa using hname⟩
  rw [Apart.eq_singleton (h.filter _) hall hmem hpath] at hs'
  exact List.mem_singleton.1 hs'

theorem place_eq_self {services : List Service} {service : Service}
    (h : ∀ s ∈ services, s.name ≠ service.name) : service.place services = service := by
  have hnone : services.find? (·.accepts service) = none := by
    refine List.find?_eq_none.2 fun s hs haccepts => ?_
    exact h s hs (name_eq_of_accepts haccepts)
  rw [place, hnone, Option.getD_none]

/-- A service without a deploy path takes in everything of its name. -/
theorem Apart.place_eq {services : List Service} (h : Apart services) {t service : Service}
    (ht : t ∈ services) (hname : t.name = service.name) (hpath : t.path? = none) :
    service.place services = t := by
  have haccepts : t.accepts service = true := accepts_of_path?_eq_none hname hpath
  obtain ⟨s, hfind⟩ : ∃ s, services.find? (·.accepts service) = some s :=
    Option.isSome_iff_exists.1 (List.find?_isSome.2 ⟨t, ht, haccepts⟩)
  have hs := List.find?_some hfind
  have hsname : s.name = t.name := (name_eq_of_accepts hs).trans hname.symm
  rw [place, hfind, Option.getD_some]
  exact h.eq_of_path?_eq_none (List.mem_of_find?_eq_some hfind) ht hsname hpath

/-- Among services with deploy paths a service with one keeps its own. -/
theorem path?_place_of_path? {services : List Service} {service : Service} {q : String}
    (hservice : service.path? = some q)
    (h : ∀ s ∈ services, s.name = service.name → s.path? ≠ none) :
    (service.place services).path? = some q := by
  unfold place
  cases hfind : services.find? (·.accepts service) with
  | none => rw [Option.getD_none, hservice]
  | some s =>
    have haccepts := List.find?_some hfind
    rw [Option.getD_some]
    cases hpath : s.path? with
    | none =>
      exact absurd hpath
        (h s (List.mem_of_find?_eq_some hfind) (name_eq_of_accepts haccepts))
    | some r =>
      -- With deploy paths on both sides, accepting means that they are the same.
      rw [((accepts_iff_of_paths hpath hservice).1 haccepts).2]

/-- The deploy path under which a service is placed, given the first service of its name. -/
def scope (service : Service) (first? : Option Service) : Option String :=
  match first? with
  | none => service.path?
  | some first => first.path?.map fun p => service.path?.getD p

theorem scope_self (service : Service) : service.scope (some service) = service.path? := by
  cases h : service.path? with
  | none => simp only [scope, h, Option.map_none]
  | some p => simp only [scope, h, Option.map_some, Option.getD_some]

/-- The first service of a name decides whether the name has deploy paths, and its own
    stands for the missing one of a later service. -/
theorem Apart.path?_place {services : List Service} (h : Apart services) (service : Service) :
    (service.place services).path? =
      service.scope (services.find? (·.name == service.name)) := by
  cases hfirst : services.find? (·.name == service.name) with
  | none =>
    have hnone : ∀ s ∈ services, s.name ≠ service.name := by
      intro s hs
      simpa using List.find?_eq_none.1 hfirst s hs
    rw [place_eq_self hnone, scope]
  | some first =>
    have hmem : first ∈ services := List.mem_of_find?_eq_some hfirst
    have hname : first.name = service.name := by simpa using List.find?_some hfirst
    cases hpath : first.path? with
    | none => rw [h.place_eq hmem hname hpath, scope, hpath, Option.map_none]
    | some p =>
      rw [scope, hpath, Option.map_some]
      cases hservice : service.path? with
      | none =>
        -- A service without a deploy path goes to the first one of its name.
        rw [place, find?_accepts_of_path?_eq_none services hservice, hfirst, Option.getD_some,
          hpath, Option.getD_none]
      | some q =>
        rw [Option.getD_some]
        refine path?_place_of_path? hservice fun s hs hsname hspath => ?_
        -- Such a service would be the only one of its name, but the first one has a path.
        have heq : first = s := h.eq_of_path?_eq_none hmem hs (hname.trans hsname.symm) hspath
        rw [heq, hspath] at hpath
        cases hpath

end ServiceRegistry.Service
