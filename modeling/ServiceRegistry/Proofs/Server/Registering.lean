/-
  ServiceRegistry.Proofs.Server.Registering

  What a request to register has done when it is answered with 200, if nothing else is at work
  meanwhile. All hosts are determined first; then the endpoints are registered one after the
  other, which is a batch of the inventory (`runAlone_enrolAll`), and what follows leaves the
  inventory alone. From the outside in, the request is let in, read and answered, and each of
  these comes with an equation for the run of what is inside.

  The clock may go on, or back, before each step, so every endpoint has a reading of its own.
-/
import Mathlib.Data.List.Forall2
import ServiceRegistry.Proofs.Inventory.Batch
import ServiceRegistry.Proofs.Server.Admission
import ServiceRegistry.Proofs.Server.Episodes
import ServiceRegistry.Proofs.World.Alone

namespace ServiceRegistry.Server

open Inventory (Answer Batched Filing Moment Ready)
open Message Net World

/-! ## Addresses in a row -/

/-- The registrations of endpoints one after the other. Each takes a step that reads the clock
    and one that registers. -/
def filings (drifts : Nat → Drift) (addresses : List (Endpoint × List Capability)) :
    List Filing :=
  addresses.mapIdx fun k a => ⟨a.1, a.2, (drifts (2 * k)).clock⟩

theorem filings_cons (drifts : Nat → Drift) (a : Endpoint × List Capability)
    (rest : List (Endpoint × List Capability)) :
    filings drifts (a :: rest) =
      ⟨a.1, a.2, (drifts 0).clock⟩ :: filings (fun n => drifts (n + 2)) rest := by
  unfold filings
  rw [List.mapIdx_cons]
  rfl

section

variable {service : Service} (policy : Policy) (hname : service.name ≠ "")
include hname

theorem runAlone_enrol (endpoint : Endpoint) (capabilities : List Capability)
    (drifts : Nat → Drift) (w : World) :
    let x : Filing := ⟨endpoint, capabilities, (drifts 0).clock⟩
    let m : Moment := ⟨x.event service, w.inventory⟩
    ∃ r w₁, m.answer policy = .enrolled (.ok r) ∧ w₁.inventory = m.after policy ∧
      ∀ {β : Type} (f : Except RegistryError Enrolment → Work β),
        runAlone (enrol service endpoint capabilities >>= f) drifts w =
          runAlone (f (.ok r)) (fun n => drifts (n + 2)) w₁ := by
  intro x m
  have hperform : m.perform policy w.inventory = Inventory.attempt w.inventory .enrolled
      (w.inventory.enrol service endpoint capabilities (drifts 0).clock) := rfl
  cases henrol : w.inventory.enrol service endpoint capabilities (drifts 0).clock with
  | error e =>
    -- Only a missing name is refused.
    simp only [Inventory.enrol, hname, if_false, reduceCtorEq] at henrol
  | ok result =>
    obtain ⟨r, inv'⟩ := result
    rw [henrol] at hperform
    have hafter : m.after policy = inv' := congrArg Prod.snd hperform
    refine ⟨r, { (drifts 1).after ((drifts 0).after w) with inventory := inv' },
      congrArg Prod.fst hperform, hafter.symm, fun f => ?_⟩
    -- After the clock is read, the second step meets the inventory as the first has.
    show runAlone
      (tryInventory (fun inv => inv.enrol service endpoint capabilities (drifts 0).clock) >>= f)
      (fun n => drifts (n + 1)) ((drifts 0).after w) = _
    exact runAlone_tryInventory henrol f _

/-- Endpoints of a service with a name are all registered. -/
theorem runAlone_enrolAll (addresses : List (Endpoint × List Capability))
    (drifts : Nat → Drift) (w : World) :
    let es := (filings drifts addresses).map (·.event service)
    ∃ rs, (runAlone (enrolAll service addresses) drifts w).1 = .ok rs ∧
      (runAlone (enrolAll service addresses) drifts w).2.inventory
        = Inventory.after policy w.inventory es ∧
      (Inventory.history policy w.inventory es).map (·.answer policy)
        = rs.map fun r => Answer.enrolled (.ok r) := by
  -- Along the addresses; each registration takes two of the drifts.
  induction addresses generalizing drifts w with
  | nil => exact ⟨[], rfl, rfl, rfl⟩
  | cons a rest ih =>
    obtain ⟨r, w₁, hanswer, hafter, hbind⟩ := runAlone_enrol policy hname a.1 a.2 drifts w
    obtain ⟨rs, hvalue, hinventory, hanswers⟩ := ih (fun n => drifts (n + 2)) w₁
    have hall : runAlone (enrolAll service (a :: rest)) drifts w
        = (.ok (r :: rs), (runAlone (enrolAll service rest) (fun n => drifts (n + 2)) w₁).2) := by
      rw [enrolAll, hbind]
      dsimp only
      rw [runAlone_bind, hvalue]
      rfl
    rw [hafter] at hinventory hanswers
    rw [filings_cons, hall]
    refine ⟨r :: rs, rfl, hinventory, ?_⟩
    rw [List.map_cons, List.map_cons, ← hanswers, ← hanswer]
    rfl

/-- The number that is answered belongs to the instance that the last registration has found
    or created. -/
theorem houses_lastId {inv : Inventory} {xs : List Filing} {x : Filing} {rs : List Enrolment}
    (hx : xs.getLast? = some x)
    (hanswers : (Inventory.history policy inv (xs.map (·.event service))).map (·.answer policy)
      = rs.map fun r => Answer.enrolled (.ok r)) :
    (Inventory.after policy inv (xs.map (·.event service))).Houses service x.endpoint
      (lastId rs) := by
  obtain ⟨init, rfl⟩ := List.getLast?_eq_some_iff.1 hx
  obtain ⟨r, hanswer, hhouses⟩ := Inventory.houses_after_last policy hname inv init x
  have hlast := congrArg List.getLast? hanswers
  rw [List.map_append, Inventory.history_append, List.map_append, List.getLast?_append,
    List.getLast?_map (l := rs)] at hlast
  -- The last answer is the one to the last registration.
  have hfound : some (Answer.enrolled (.ok r)) = rs.getLast?.map fun r => .enrolled (.ok r) := by
    rw [← hanswer]
    exact hlast
  obtain ⟨q, hq, heq⟩ := Option.map_eq_some_iff.1 hfound.symm
  rw [Answer.enrolled.injEq, Except.ok.injEq] at heq
  rw [lastId, hq, heq]
  exact hhouses

end

/-! ## Addresses as they are announced -/

/-- What is registered for an announced address. -/
structure Fulfils (cfg : Settings) (peer : Option Ip) (a : Announcement) (x : Filing) : Prop where
  host_eq : publishedHost a.host peer cfg.localIp = .ok x.endpoint.host
  port_eq : x.endpoint.port = a.port
  capabilities_eq : x.capabilities = a.capabilities

section

variable {cfg : Settings} {peer : Option Ip}

theorem publishedEndpoints_cons_ok {a : Announcement} {rest : List Announcement}
    {endpoints : List Endpoint} (h : publishedEndpoints cfg peer (a :: rest) = .ok endpoints) :
    ∃ host endpoints', publishedHost a.host peer cfg.localIp = .ok host ∧
      publishedEndpoints cfg peer rest = .ok endpoints' ∧
      endpoints = ⟨host, a.port⟩ :: endpoints' := by
  unfold publishedEndpoints at h ⊢
  rw [List.mapM_cons] at h
  cases hhost : publishedHost a.host peer cfg.localIp with
  | error e =>
    rw [hhost] at h
    cases h
  | ok host =>
    rw [hhost] at h
    cases hrest : publishedEndpoints cfg peer rest with
    | error e =>
      unfold publishedEndpoints at hrest
      rw [hrest] at h
      cases h
    | ok endpoints' =>
      unfold publishedEndpoints at hrest
      rw [hrest] at h
      exact ⟨host, endpoints', rfl, hrest, (Except.ok.inj h).symm⟩

/-- Every address is registered as it is announced, in order. -/
theorem fulfils_filings (drifts : Nat → Drift) {addresses : List Announcement}
    {endpoints : List Endpoint} (h : publishedEndpoints cfg peer addresses = .ok endpoints) :
    let xs := filings drifts (endpoints.zip (addresses.map (·.capabilities)))
    List.Forall₂ (Fulfils cfg peer) addresses xs ∧ xs.map (·.endpoint) = endpoints := by
  induction addresses generalizing endpoints drifts with
  | nil =>
    cases h
    exact ⟨.nil, rfl⟩
  | cons a rest ih =>
    obtain ⟨host, endpoints', hhost, hrest, rfl⟩ := publishedEndpoints_cons_ok h
    obtain ⟨hfulfils, hendpoints⟩ := ih (fun n => drifts (n + 2)) hrest
    rw [List.map_cons, List.zip_cons_cons, filings_cons]
    exact ⟨.cons ⟨hhost, rfl, rfl⟩ hfulfils, congrArg (_ :: ·) hendpoints⟩

/-! ## The handler -/

/-- What follows the registrations changes neither the answer nor the inventory. -/
theorem runAlone_register_eq {r : RegisterRequest} {endpoints : List Endpoint}
    {rs : List Enrolment} {drifts : Nat → Drift} {w : World} (haddresses : r.addresses ≠ [])
    (hname : r.service.name ≠ "")
    (hendpoints : publishedEndpoints cfg peer r.addresses = .ok endpoints) :
    let enrolled :=
      runAlone (enrolAll r.service (endpoints.zip (r.addresses.map (·.capabilities)))) drifts w
    enrolled.1 = .ok rs →
      (runAlone (register cfg peer r) drifts w).1 = .ok ⟨lastId rs, endpoints⟩ ∧
      (runAlone (register cfg peer r) drifts w).2.inventory = enrolled.2.inventory := by
  intro enrolled hvalue
  rw [register, if_neg haddresses, if_neg hname, hendpoints]
  dsimp only
  rw [runAlone_bind, hvalue]
  dsimp only
  split
  · constructor
    · rw [runAlone_bind, runAlone_bind]
      rfl
    · refine runAlone_inventory cfg.policy (steps_bind (steps_count _) fun _ => ?_) _ _
      exact steps_bind (steps_refresh cfg) fun _ => steps_pure _
  · exact ⟨rfl, rfl⟩

theorem runAlone_register {r : RegisterRequest} {answer : RegisterResponse}
    {drifts : Nat → Drift} {w : World}
    (h : (runAlone (register cfg peer r) drifts w).1 = .ok answer) :
    ∃ xs x, List.Forall₂ (Fulfils cfg peer) r.addresses xs ∧
      (∀ k y, xs[k]? = some y → y.now = (drifts (2 * k)).clock) ∧
      r.service.name ≠ "" ∧ xs.getLast? = some x ∧ answer.addresses = xs.map (·.endpoint) ∧
      let inv' := Inventory.after cfg.policy w.inventory (xs.map (·.event r.service))
      (runAlone (register cfg peer r) drifts w).2.inventory = inv' ∧
        inv'.Houses r.service x.endpoint answer.instanceId := by
  have haddresses : r.addresses ≠ [] := by
    intro hnil
    rw [register, if_pos hnil] at h
    cases h
  have hname : r.service.name ≠ "" := by
    intro hempty
    rw [register, if_neg haddresses, if_pos hempty] at h
    cases h
  cases hendpoints : publishedEndpoints cfg peer r.addresses with
  | error e =>
    rw [register, if_neg haddresses, if_neg hname, hendpoints] at h
    cases h
  | ok endpoints =>
    let requested := endpoints.zip (r.addresses.map (·.capabilities))
    obtain ⟨rs, hvalue, hinventory, hanswers⟩ :=
      runAlone_enrolAll cfg.policy hname requested drifts w
    obtain ⟨hanswer, hsame⟩ := runAlone_register_eq haddresses hname hendpoints hvalue
    rw [hanswer, Except.ok.injEq] at h
    subst h
    obtain ⟨hfulfils, hxs⟩ := fulfils_filings drifts hendpoints
    have hnil : filings drifts requested ≠ [] := by
      intro hnil
      have hlength := hfulfils.length_eq
      rw [hnil] at hlength
      exact haddresses (List.eq_nil_of_length_eq_zero hlength)
    refine ⟨filings drifts requested, (filings drifts requested).getLast hnil, hfulfils, ?_, hname,
      List.getLast?_eq_some_getLast hnil, hxs.symm, hsame.trans hinventory,
      houses_lastId cfg.policy hname (List.getLast?_eq_some_getLast hnil) hanswers⟩
    intro k y hy
    rw [filings, List.getElem?_mapIdx] at hy
    obtain ⟨a, -, rfl⟩ := Option.map_eq_some_iff.1 hy
    rfl

end

/-! ## The request -/

section

variable {cfg : Settings} {peer : Option Ip} {r : Request} {drifts : Nat → Drift} {w : World}

theorem status_of_readBody_error {α : Type} {decode : Json.Decoder α} {response : Response}
    (h : readBody decode r = .error response) : response.status ≠ 200 := by
  have hfault : ∀ fault, (unreadable fault).status ≠ 200 := by
    rintro (_ | _) <;> exact nofun
  unfold readBody at h
  split at h
  · cases hread : decode.readFirst r.body with
    | error fault =>
      rw [hread] at h
      cases h
      exact hfault fault
    | ok a =>
      rw [hread] at h
      cases h
  · cases h
    exact nofun

/-- A request is refused because nobody vouches for it or because it is not allowed. -/
theorem refusal?_cases {secret : String} {permission : Access.Permission} {now : UInt64}
    {authorization : Option (List UInt8)} {status : Nat}
    (h : refusal? secret permission now authorization = some status) :
    status = 401 ∨ status = 403 := by
  by_cases hvouches : ∃ claims, Vouches secret now authorization claims
  · obtain ⟨claims, hvouches⟩ := hvouches
    rw [refusal?_of_vouches permission hvouches] at h
    split at h
    · cases h
    · exact .inr (Option.some.inj h).symm
  · rw [refusal?_of_not_vouches permission (not_exists.1 hvouches)] at h
    exact .inl (Option.some.inj h).symm

theorem status_of_refusal? {secret : String} {permission : Access.Permission} {now : UInt64}
    {authorization : Option (List UInt8)} {status : Nat}
    (h : refusal? secret permission now authorization = some status) : status ≠ 200 := by
  rcases refusal?_cases h with rfl | rfl <;> decide

/-- An operation that is answered with 200 was read and carried out. -/
theorem runAlone_serve {α β : Type} {decode : Json.Decoder α} {encode : β → Json}
    {handler : α → Work (Except RegistryError β)}
    (h : (runAlone (serve decode encode handler r) drifts w).1.status = 200) :
    ∃ a b, readBody decode r = .ok a ∧ (runAlone (handler a) drifts w).1 = .ok b ∧
      runAlone (serve decode encode handler r) drifts w
        = (.json 200 (encode b), (runAlone (handler a) drifts w).2) := by
  unfold serve at h ⊢
  cases hread : readBody decode r with
  | error response =>
    rw [hread] at h
    exact absurd h (status_of_readBody_error hread)
  | ok a =>
    rw [hread] at h
    simp only [runAlone_bind_pure] at h ⊢
    cases hvalue : (runAlone (handler a) drifts w).1 with
    | error e =>
      rw [hvalue] at h
      have hkind : e.kind.status ≠ 200 := by cases e <;> exact nofun
      exact absurd h hkind
    | ok b => exact ⟨a, b, rfl, hvalue, rfl⟩

theorem runAlone_dispatch_register (hpath : r.path = Operation.register.path)
    (h : (runAlone (dispatch cfg peer r) drifts w).1.status = 200) :
    r.method = "POST" ∧ ∃ a b, readBody RegisterRequest.decode r = .ok a ∧
      (runAlone (register cfg peer a) drifts w).1 = .ok b ∧
      runAlone (dispatch cfg peer r) drifts w
        = (.json 200 (RegisterResponse.toJson b), (runAlone (register cfg peer a) drifts w).2) := by
  unfold dispatch at h ⊢
  rw [hpath, ofPath?_path] at h ⊢
  dsimp only at h ⊢
  split at h
  case isTrue hmethod =>
    rw [if_pos hmethod]
    have hpost : r.method = "POST" := by simpa [Resource.methods] using hmethod
    exact ⟨hpost, runAlone_serve h⟩
  case isFalse => cases h

/-- Where no secret is set, the request is dispatched at once. -/
theorem runAlone_respond_open (hsecret : cfg.secret = none)
    (hpath : r.path = Operation.register.path)
    (h : (runAlone (respond cfg peer r) drifts w).1.status = 200) :
    ∃ a b, readBody RegisterRequest.decode r = .ok a ∧
      (runAlone (register cfg (peer.map Ip.canonical) a) drifts w).1 = .ok b ∧
      runAlone (respond cfg peer r) drifts w = (.json 200 (RegisterResponse.toJson b),
        (runAlone (register cfg (peer.map Ip.canonical) a) drifts w).2) := by
  unfold respond guarded at h ⊢
  rw [hsecret] at h ⊢
  dsimp only at h ⊢
  rw [runAlone_bind_pure] at h ⊢
  obtain ⟨hpost, a, b, hread, hvalue, hdispatch⟩ := runAlone_dispatch_register hpath h
  refine ⟨a, b, hread, hvalue, ?_⟩
  rw [hdispatch, methodMismatch?_of_post hpost hpath]
  rfl

/-- A request to register that is answered with 200 was let in, read and carried out. Where a
    secret is set it has taken a step before. -/
theorem runAlone_respond_register (hpath : r.path = Operation.register.path)
    (h : (runAlone (respond cfg peer r) drifts w).1.status = 200) :
    ∃ skip w₁ a b, w₁.inventory = w.inventory ∧ readBody RegisterRequest.decode r = .ok a ∧
      let done := runAlone (register cfg (peer.map Ip.canonical) a) (fun n => drifts (n + skip)) w₁
      done.1 = .ok b ∧
      runAlone (respond cfg peer r) drifts w
        = (.json 200 (RegisterResponse.toJson b), done.2) := by
  cases hsecret : cfg.secret with
  | none =>
    obtain ⟨a, b, hread, hvalue, hrespond⟩ := runAlone_respond_open hsecret hpath h
    exact ⟨0, w, a, b, rfl, hread, hvalue, hrespond⟩
  | some secret =>
    have hpermission : requiredPermission? r.path = some Operation.register.permission := by
      rw [hpath]
      exact requiredPermission?_path .register
    rw [respond_gated hsecret hpermission, runAlone] at h ⊢
    split at h
    case h_1 status hrefusal => exact absurd h (status_of_refusal? hrefusal)
    case h_2 =>
      obtain ⟨a, b, hread, hvalue, hrespond⟩ :=
        runAlone_respond_open rfl hpath h
      exact ⟨1, (drifts 0).after w, a, b, rfl, hread, hvalue, hrespond⟩

end

/-! ## What is shown of it -/

/-- A list by the name of the service and a lookup of the service both show the address, under
    the service of the entry. -/
def Shown (w : World) (service : Service) (e : Entry) (a : Address) : Prop :=
  (∃ answer l, ((list ⟨service.name⟩).run w).1 = .ok answer ∧ l ∈ answer.services ∧
    l.service = e.service ∧ a ∈ l.addresses) ∧
  ∃ answer, ((lookup ⟨service⟩).run w).1 = .ok answer ∧ answer.service = e.service ∧
    a ∈ answer.addresses

section

variable {w : World} {service : Service} {e : Entry} {i : Instance}

theorem mem_addresses_visible (hi : i ∈ e.instances) (hvisible : i.isVisible = true) :
    ⟨i.endpoint.host, i.endpoint.port, i.capabilities⟩ ∈
      (Listing.ofEntry e.visible).addresses :=
  List.mem_map_of_mem (List.mem_filter.2 ⟨hi, hvisible⟩)

theorem lookupAnswer_of_mem (name : String) (rest : List Entry) {a : Address}
    (ha : a ∈ (Listing.ofEntry e).addresses) :
    ∃ answer, lookupAnswer name (e :: rest) = .ok answer ∧ answer.service = e.service ∧
      a ∈ answer.addresses := by
  have hmem : a ∈ (e :: rest).flatMap fun d => (Listing.ofEntry d).addresses :=
    List.mem_flatMap.2 ⟨e, List.mem_cons_self, ha⟩
  unfold lookupAnswer
  cases haddresses : (e :: rest).flatMap fun d => (Listing.ofEntry d).addresses with
  | nil =>
    rw [haddresses] at hmem
    cases hmem
  | cons b bs =>
    rw [haddresses] at hmem
    exact ⟨_, rfl, rfl, hmem⟩

/-- What is in the first entry that accepts a service and is not hidden is shown. -/
theorem shown_of_first (hname : service.name ≠ "")
    (hfirst : w.inventory.entries.find? (·.service.accepts service) = some e)
    (hi : i ∈ e.instances) (hvisible : i.isVisible = true) :
    Shown w service e ⟨i.endpoint.host, i.endpoint.port, i.capabilities⟩ := by
  obtain ⟨haccepts, before, after, hentries, hbefore⟩ := List.find?_eq_some_iff_append.1 hfirst
  have haddress := mem_addresses_visible hi hvisible
  constructor
  · have hfilter : ListRequest.filter ⟨service.name⟩ = some service.name := if_neg hname
    have hnamed : (some service.name).all (e.service.name == ·) = true := by
      rw [Service.name_eq_of_accepts haccepts]
      exact BEq.rfl
    have hshows : (!e.visible.instances.isEmpty) = true := by
      have hne := List.ne_nil_of_mem (List.mem_filter.2 ⟨hi, hvisible⟩)
      rwa [Bool.not_eq_true', List.isEmpty_eq_false_iff]
    have hlisted : e.visible ∈ w.inventory.listing (some service.name) := by
      refine List.mem_filter.2 ⟨List.mem_map_of_mem (List.mem_filter.2 ⟨?_, hnamed⟩), hshows⟩
      exact List.mem_of_find?_eq_some hfirst
    refine ⟨.ofEntries (w.inventory.listing (some service.name)), .ofEntry e.visible, ?_,
      List.mem_map_of_mem hlisted, rfl, haddress⟩
    rw [← hfilter]
    rfl
  · -- The entries looked up begin with the first one that accepts the service.
    have hlookup : w.inventory.lookup service
        = e.visible :: (after.filter (·.service.accepts service)).map (·.visible) := by
      have hnone : before.filter (·.service.accepts service) = [] :=
        List.filter_eq_nil_iff.2 fun d hd => by simpa using hbefore d hd
      rw [Inventory.lookup, hentries, List.filter_append, hnone, List.nil_append,
        List.filter_cons, if_pos haccepts, List.map_cons]
    obtain ⟨answer, hanswer, hservice, hmem⟩ := lookupAnswer_of_mem service.name
      ((after.filter (·.service.accepts service)).map (·.visible)) haddress
    refine ⟨answer, ?_, hservice, hmem⟩
    rw [← hanswer, ← hlookup]
    rfl

end

/-! ## Answered registrations -/

/-- A request to register that is answered with 200, in a registry that has worked on requests
    and passes of any kind and does nothing else meanwhile. Its body reads `a`, and `xs` are the
    endpoints that were registered for the addresses in it, in order, each at the time when the
    clock was read for it. The answer gives all of them. They went to one entry (`Batched`),
    where each of them has its instance and is shown, its host and its port with the
    capabilities of the instance. The number in the answer is that of the instance at the last
    of them. -/
theorem register_answered (cfg : Settings) (w₀ : World) (hw₀ : w₀.inventory = .empty)
    (moves : List (Move Episode)) (peer : Option Ip) (r : Request)
    (hpath : r.path = Operation.register.path) (drifts : Nat → Drift) :
    let w := (Running.after (Episode.work cfg) { world := w₀ } moves).world
    let done := runAlone (respond cfg peer r) drifts w
    done.1.status = 200 →
    creations (Episode.work cfg) { world := w₀ } moves
      + (done.2.inventory.size - w.inventory.size) < UInt64.size →
    ∃ a id xs skip before e e' after new,
      readBody RegisterRequest.decode r = .ok a ∧
      done.1 = .json 200 (RegisterResponse.toJson ⟨id, xs.map (·.endpoint)⟩) ∧
      List.Forall₂ (Fulfils cfg (peer.map Ip.canonical)) a.addresses xs ∧
      (∀ k x, xs[k]? = some x → x.now = (drifts (2 * k + skip)).clock) ∧
      Batched a.service xs w.inventory done.2.inventory before e e' after new ∧
      (∀ x ∈ xs, ∃ i ∈ e'.instances, i.endpoint = x.endpoint ∧
        Shown done.2 a.service e' ⟨x.endpoint.host, x.endpoint.port, i.capabilities⟩) ∧
      ∃ x i, xs.getLast? = some x ∧ i ∈ e'.instances ∧ i.endpoint = x.endpoint ∧ i.id = id := by
  intro w done hstatus hroom
  obtain ⟨skip, w₁, a, b, hmet, hread, hvalue, hdone⟩ := runAlone_respond_register hpath hstatus
  obtain ⟨xs, x, hfulfils, hreadings, hname, hlast, hanswer, hinventory, hhouses⟩ :=
    runAlone_register hvalue
  have hafter : done.2.inventory
      = Inventory.after cfg.policy w.inventory (xs.map (·.event a.service)) := by
    rw [← hmet, ← hinventory]
    exact congrArg (fun p => p.2.inventory) hdone
  have hnil : xs ≠ [] := by
    rintro rfl
    cases hlast
  -- There are numbers for what the request creates, since there are for what is there after it.
  have hattained : Attained (creations (Episode.work cfg) { world := w₀ } moves) w.inventory :=
    attained_episodes hw₀ (by omega)
  have hready : Inventory.Ready cfg.policy w.inventory (xs.map (·.event a.service)) := by
    refine ⟨hattained.wellFormed, ?_⟩
    rw [hafter, Inventory.size_after_batch, Nat.add_sub_cancel, ← hattained.lastId_eq] at hroom
    exact hroom
  obtain ⟨before, e, e', after, new, hbatched⟩ := Inventory.batched_after hname hnil hready
  rw [← hafter] at hbatched
  rw [hmet, ← hafter] at hhouses
  refine ⟨a, b.instanceId, xs, skip, before, e, e', after, new, hread, ?_, hfulfils, hreadings,
    hbatched, ?_, ?_⟩
  · rw [← hanswer]
    exact congrArg Prod.fst hdone
  · intro y hy
    obtain ⟨i, hi, hendpoint⟩ := hbatched.exists_instance hy
    have hvisible := hbatched.isVisible hattained.allVisible hi
    have hshown := shown_of_first hname hbatched.find?_eq hi hvisible
    rw [hendpoint] at hshown
    exact ⟨i, hi, hendpoint, hshown⟩
  · obtain ⟨d, i, hfirst, hi, hendpoint, hid⟩ := hhouses
    rw [hbatched.find?_eq, Option.some.injEq] at hfirst
    subst hfirst
    exact ⟨x, i, hlast, hi, hendpoint, hid⟩

/-- A request without a deploy path that joins the entry of another one. It announces the
    endpoint that is there, twice one at the address it comes from, and one at a loopback host. -/
theorem register_answered_mixed :
    let registry : Client.Handle := { origin := "http://registry" }
    let first := (registry.call .register (RegisterRequest.toJson
      ⟨⟨"kv", some "ns/g/kv/7"⟩, [⟨"node-1", 9000, [.tcp]⟩]⟩)).request
    let r := (registry.call .register (RegisterRequest.toJson ⟨⟨"kv", none⟩,
      [⟨"node-1", 9000, [.grpc]⟩, ⟨"", 9001, [.status]⟩, ⟨"", 9001, [.tcp]⟩,
        ⟨"localhost", 9002, [.tcp]⟩]⟩)).request
    let cfg : Settings := { localIp := some (.v4 ⟨10, 0, 0, 1⟩) }
    let peer : Option Ip := some (.v4 ⟨10, 0, 0, 9⟩)
    let moves : List (Move Episode) :=
      .start (.request none first) :: List.replicate 6 (.proceed 0)
    let w₀ : World := { clock := 1000, unixTime := 0 }
    let w := (Running.after (Episode.work cfg) { world := w₀ } moves).world
    let done := runAlone (respond cfg peer r) (fun n => ⟨2000 + UInt64.ofNat n, 0, {}⟩) w
    let kv : Listing := ⟨⟨"kv", some "ns/g/kv/7"⟩,
      [⟨"node-1", 9000, [.tcp]⟩, ⟨"10.0.0.9", 9001, [.status]⟩, ⟨"10.0.0.1", 9002, [.tcp]⟩]⟩
    w.inventory.size = 1 ∧ done.1.status = 200 ∧ done.2.inventory.size = 3 ∧
    done.1.body = Text.utf8 ("\x7b\"instance_id\":3,\"addresses\":["
      ++ "\x7b\"host\":\"node-1\",\"port\":9000\x7d,"
      ++ "\x7b\"host\":\"10.0.0.9\",\"port\":9001\x7d,"
      ++ "\x7b\"host\":\"10.0.0.9\",\"port\":9001\x7d,"
      ++ "\x7b\"host\":\"10.0.0.1\",\"port\":9002\x7d]\x7d") ∧
    ((list ⟨"kv"⟩).run done.2).1 = .ok ⟨[kv]⟩ ∧
    ((lookup ⟨⟨"kv", none⟩⟩).run done.2).1 = .ok kv ∧
    ∃ a id xs before e e' after new, readBody RegisterRequest.decode r = .ok a ∧
      done.1 = .json 200 (RegisterResponse.toJson ⟨id, xs.map (·.endpoint)⟩) ∧
      Batched a.service xs w.inventory done.2.inventory before e e' after new ∧
      ∀ x ∈ xs, ∃ i ∈ e'.instances, i.endpoint = x.endpoint ∧
        Shown done.2 a.service e' ⟨x.endpoint.host, x.endpoint.port, i.capabilities⟩ := by
  intro registry first r cfg peer moves w₀ w done kv
  have hsize : w.inventory.size = 1 := by decide +kernel
  have hstatus : done.1.status = 200 := by decide +kernel
  have hgrown : done.2.inventory.size = 3 := by decide +kernel
  have hmade : creations (Episode.work cfg) { world := w₀ } moves = 1 := by decide +kernel
  have hroom : creations (Episode.work cfg) { world := w₀ } moves
      + (done.2.inventory.size - w.inventory.size) < UInt64.size := by
    rw [hmade, hsize, hgrown]
    decide
  have hlisted : ((list ⟨"kv"⟩).run done.2).1 = .ok ⟨[kv]⟩ := by decide +kernel
  have hfound : ((lookup ⟨⟨"kv", none⟩⟩).run done.2).1 = .ok kv := by decide +kernel
  obtain ⟨a, id, xs, -, before, e, e', after, new, hread, hanswer, -, -, hbatched, hshown, -⟩ :=
    register_answered cfg w₀ rfl moves peer r (by decide) _ hstatus hroom
  exact ⟨hsize, hstatus, hgrown, by decide +kernel, hlisted, hfound,
    a, id, xs, before, e, e', after, new, hread, hanswer, hbatched, hshown⟩

end ServiceRegistry.Server
