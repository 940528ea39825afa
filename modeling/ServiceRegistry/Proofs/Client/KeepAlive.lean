/-
  ServiceRegistry.Proofs.Client.KeepAlive

  What is left of a keep-alive that has been shut down. A request may announce many addresses,
  but its answer gives one number, that of the instance at the last of them, and this is all
  that the keep-alive holds of the request. So when everything was announced and everything
  held has been withdrawn, the last address of each request is shown nowhere; the others stay
  for the policy to remove, or for a withdrawal by their ports.

  Announcing is a run of registrations, which keep what was registered before where it is
  found; shutting down is a run of withdrawals of the numbers held.
-/
import ServiceRegistry.Client.KeepAlive
import ServiceRegistry.Proofs.Client.Remote
import ServiceRegistry.Proofs.Inventory.Removal

namespace ServiceRegistry.Client

open Inventory (Event Moment Ready Withdraws creations)
open KeepAlive (held ofRequests)
open Message Net World

/-! ## Lists side by side -/

section

variable {α β : Type} {R : α → β → Prop} {as : List α} {bs : List β}

theorem getLast?_of_forall₂ {b : β} (h : List.Forall₂ R as bs) (hb : bs.getLast? = some b) :
    ∃ a, as.getLast? = some a ∧ R a b := by
  obtain ⟨init, rfl⟩ := List.getLast?_eq_some_iff.1 hb
  have hreverse := List.forall₂_reverse_iff.2 h
  rw [List.reverse_append, List.reverse_singleton, List.singleton_append] at hreverse
  obtain ⟨a, rest, hab, -, has⟩ := List.forall₂_cons_right_iff.1 hreverse
  refine ⟨a, ?_, hab⟩
  rw [List.getLast?_eq_head?_reverse, has]
  rfl

theorem exists_mem_of_forall₂ (h : List.Forall₂ R as bs) {a : α} (ha : a ∈ as) :
    ∃ b ∈ bs, R a b := by
  obtain ⟨n, hn, rfl⟩ := List.getElem_of_mem ha
  have hn' : n < bs.length := by rwa [← h.length_eq]
  exact ⟨bs[n], List.getElem_mem hn', h.get hn hn'⟩

theorem exists_map_some {xs : List (Option α)} (h : ∀ x ∈ xs, x.isSome = true) :
    ∃ ys : List α, xs = ys.map some := by
  induction xs with
  | nil => exact ⟨[], rfl⟩
  | cons x xs ih =>
    obtain ⟨hx, hxs⟩ := List.forall_mem_cons.1 h
    obtain ⟨y, rfl⟩ := Option.isSome_iff_exists.1 hx
    obtain ⟨ys, rfl⟩ := ih hxs
    exact ⟨y :: ys, rfl⟩

end

/-! ## Announcing -/

/-- The number is that of the instance at the last address of a request, where another
    registration of this address would find it. -/
def Holds (cfg : Settings) (peer : Option Ip) (inv : Inventory) (r : RegisterRequest)
    (id : InstanceId) : Prop :=
  ∃ a host, r.addresses.getLast? = some a ∧
    publishedHost a.host (peer.map Ip.canonical) cfg.localIp = .ok host ∧
    inv.Houses r.service ⟨host, a.port⟩ id

section

variable {cfg : Settings} {peer : Option Ip} (h : Handle)

theorem holds_of_register {r : RegisterRequest} {drifts : Nat → Drift} {w : World}
    {answer : RegisterResponse}
    (hok : (runAlone (h.register (reaching cfg peer) r) drifts w).1 = .ok answer) :
    ∃ es, (∀ e ∈ es, e.Registers) ∧
      let inv' := Inventory.after cfg.policy w.inventory es
      (runAlone (h.register (reaching cfg peer) r) drifts w).2.inventory = inv' ∧
        Holds cfg peer inv' r answer.instanceId := by
  obtain ⟨xs, x, hfulfils, hlast, hinventory, hhouses⟩ := runAlone_register h hok
  obtain ⟨a, ha, hx⟩ := getLast?_of_forall₂ hfulfils hlast
  refine ⟨xs.map (·.event r.service), Inventory.registers_batch r.service xs, hinventory,
    a, x.endpoint.host, ha, hx.host_eq, ?_⟩
  rw [← hx.port_eq]
  exact hhouses

theorem Holds.after_registrations {inv : Inventory} {es : List Event} {r : RegisterRequest}
    {id : InstanceId} (hholds : Holds cfg peer inv r id) (hready : Ready cfg.policy inv es)
    (hes : ∀ e ∈ es, e.Registers) : Holds cfg peer (Inventory.after cfg.policy inv es) r id := by
  obtain ⟨a, host, ha, hhost, hhouses⟩ := hholds
  exact ⟨a, host, ha, hhost, hhouses.after_registrations hready hes⟩

theorem length_announce (regs : List Registration) (drifts : Nat → Drift) (w : World) :
    (runAlone (KeepAlive.announce h (reaching cfg peer) regs) drifts w).1.length
      = regs.length := by
  induction regs generalizing drifts w with
  | nil => rfl
  | cons r regs ih =>
    rw [KeepAlive.announce, runAlone_bind, runAlone_bind_pure, List.length_cons, ih,
      List.length_cons]

/-- Where every request was answered with a number, what has taken place are registrations, and
    in the end each number is that of the last address of its request. -/
theorem runAlone_announce {regs : List Registration} {drifts : Nat → Drift} {w : World}
    {ids : List InstanceId}
    (hall : (runAlone (KeepAlive.announce h (reaching cfg peer) regs) drifts w).1
      = ids.map some) :
    ∃ es, (∀ e ∈ es, e.Registers) ∧
      let inv' := Inventory.after cfg.policy w.inventory es
      (runAlone (KeepAlive.announce h (reaching cfg peer) regs) drifts w).2.inventory = inv' ∧
        (Ready cfg.policy w.inventory es →
          List.Forall₂ (fun r id => Holds cfg peer inv' r.request id) regs ids) := by
  -- Along the requests. What one has registered is kept by the others.
  induction regs generalizing drifts w ids with
  | nil =>
    obtain rfl := List.map_eq_nil_iff.1 hall.symm
    exact ⟨[], List.forall_mem_nil _, rfl, fun _ => .nil⟩
  | cons r regs ih =>
    rw [KeepAlive.announce, runAlone_bind, runAlone_bind_pure] at hall ⊢
    obtain ⟨id, ids, rfl⟩ : ∃ id rest, ids = id :: rest := by
      cases ids with
      | nil => cases hall
      | cons id ids => exact ⟨id, ids, rfl⟩
    obtain ⟨hfirst, hrest⟩ := List.cons.inj hall
    cases hanswer : (runAlone (h.register (reaching cfg peer) r.request) drifts w).1 with
    | error e =>
      rw [hanswer] at hfirst
      cases hfirst
    | ok answer =>
      rw [hanswer] at hfirst
      obtain rfl := Option.some.inj hfirst
      obtain ⟨es, hes, hinventory, hholds⟩ := holds_of_register h hanswer
      obtain ⟨fs, hfs, hlater, hothers⟩ := ih hrest
      rw [hinventory] at hlater hothers
      refine ⟨es ++ fs, ?_, ?_, fun hready => ?_⟩
      · exact List.forall_mem_append.2 ⟨hes, hfs⟩
      · rw [Inventory.after_append]
        exact hlater
      · rw [Inventory.after_append]
        have hkept := hholds.after_registrations hready.append_right hfs
        exact .cons hkept (hothers hready.append_right)

/-- The numbers held after every request was answered with one. -/
theorem held_zipWith {regs : List Registration} {ids : List InstanceId}
    (hlength : ids.length = regs.length) :
    held (regs.zipWith (fun r id => { r with held := id.or r.held }) (ids.map some)) = ids := by
  induction regs generalizing ids with
  | nil => exact (List.length_eq_zero_iff.1 hlength).symm
  | cons r regs ih =>
    cases ids with
    | nil => cases hlength
    | cons id ids => exact congrArg (id :: ·) (ih (Nat.succ.inj hlength))

/-- Where there are as many successes as requests, each request was answered with a number, and
    these numbers are what is held. -/
theorem runAlone_registerAll {regs : List Registration} {drifts : Nat → Drift} {w : World}
    (hcount : (runAlone (KeepAlive.registerAll h (reaching cfg peer) regs) drifts w).1.1
      = regs.length) :
    let announced := runAlone (KeepAlive.registerAll h (reaching cfg peer) regs) drifts w
    ∃ es, (∀ e ∈ es, e.Registers) ∧
      let inv' := Inventory.after cfg.policy w.inventory es
      announced.2.inventory = inv' ∧ (Ready cfg.policy w.inventory es →
        List.Forall₂ (fun r id => Holds cfg peer inv' r.request id) regs
          (held announced.1.2)) := by
  intro announced
  let found := runAlone (KeepAlive.announce h (reaching cfg peer) regs) drifts w
  have hannounced : announced = ((found.1.countP (·.isSome),
      regs.zipWith (fun r id => { r with held := id.or r.held }) found.1), found.2) :=
    runAlone_bind_pure ..
  have hlength : found.1.length = regs.length := length_announce h regs drifts w
  obtain ⟨ids, hids⟩ : ∃ ids : List InstanceId, found.1 = ids.map some := by
    refine exists_map_some (List.countP_eq_length.1 ?_)
    rw [hlength, ← hcount]
    exact congrArg (·.1.1) hannounced.symm
  have hheld : held announced.1.2 = ids := by
    rw [hannounced, hids]
    refine held_zipWith ?_
    rw [← hlength, hids, List.length_map]
  obtain ⟨es, hes, hinventory, hholds⟩ := runAlone_announce h hids
  rw [hheld, hannounced]
  exact ⟨es, hes, hinventory, hholds⟩

/-! ## Withdrawing -/

/-- The first error that matters, of a withdrawal and those after it. -/
def firstError (answer : Except ClientError Ack) (rest : Except ClientError Unit) :
    Except ClientError Unit :=
  match answer with
  | .ok _ => rest
  | .error e => if e.isNotFound then rest else .error e

theorem firstError_eq_ok {answer : Except ClientError Ack} {rest : Except ClientError Unit} :
    firstError answer rest = .ok () ↔
      rest = .ok () ∧ ∀ e, answer = .error e → e.isNotFound = true := by
  unfold firstError
  cases answer with
  | ok ack => exact ⟨fun hok => ⟨hok, nofun⟩, And.left⟩
  | error e =>
    cases hfound : e.isNotFound with
    | true => simp [hfound]
    | false => simp [hfound]

theorem runAlone_withdrawAll_cons (net : Network World) (id : InstanceId) (ids : List InstanceId)
    (drifts : Nat → Drift) (w : World) :
    let sent := runAlone (h.deregister net id) drifts w
    let rest := runAlone (KeepAlive.withdrawAll h net ids)
      (fun n => drifts (n + duration (h.deregister net id) drifts w)) sent.2
    runAlone (KeepAlive.withdrawAll h net (id :: ids)) drifts w =
      (firstError sent.1 rest.1, rest.2) := by
  intro sent rest
  rw [KeepAlive.withdrawAll, runAlone_bind]
  show runAlone (KeepAlive.withdrawAll h net ids >>= fun result => match sent.1 with
    | .ok _ => pure result
    | .error e => pure (if e.isNotFound then result else .error e)) _ sent.2 = _
  cases sent.1 with
  | ok ack => exact runAlone_bind_pure ..
  | error e => exact runAlone_bind_pure ..

/-- Withdrawals that end well have taken place, all of them. -/
theorem runAlone_withdrawAll {ids : List InstanceId} {drifts : Nat → Drift} {w : World}
    (hok : (runAlone (KeepAlive.withdrawAll h (reaching cfg peer) ids) drifts w).1 = .ok ()) :
    ∃ es, Withdraws ids es ∧
      (runAlone (KeepAlive.withdrawAll h (reaching cfg peer) ids) drifts w).2.inventory
        = Inventory.after cfg.policy w.inventory es := by
  induction ids generalizing drifts w with
  | nil => exact ⟨[], rfl, rfl⟩
  | cons id ids ih =>
    rw [runAlone_withdrawAll_cons] at hok ⊢
    obtain ⟨hrest, hanswer⟩ := firstError_eq_ok.1 hok
    obtain ⟨es, hes, hlater⟩ := ih hrest
    rcases runAlone_deregister cfg peer h id drifts w with ⟨e, herror, hfound⟩ | ⟨now, hinventory⟩
    · -- No error but that nothing was found lets the withdrawals end well.
      rw [hanswer e herror] at hfound
      cases hfound
    · rw [hinventory] at hlater
      exact ⟨⟨now, .withdraw id⟩ :: es, .cons rfl hes, hlater⟩

theorem runAlone_shutdown {regs : List Registration} {drifts : Nat → Drift} {w : World}
    (hok : (runAlone (KeepAlive.shutdown h (reaching cfg peer) regs) drifts w).1.1 = .ok ()) :
    ∃ es, Withdraws (held regs) es ∧
      (runAlone (KeepAlive.shutdown h (reaching cfg peer) regs) drifts w).2.inventory
        = Inventory.after cfg.policy w.inventory es := by
  rw [KeepAlive.shutdown, runAlone_bind_pure] at hok ⊢
  exact runAlone_withdrawAll h hok

end

/-! ## What a keep-alive leaves behind -/

/-- When a keep-alive has announced every request and withdrawn what it held, and nothing else
    has been at work, no view shows an instance whose number it held, and none shows the last
    address of any of the requests for the service that it was registered under. -/
theorem shutdown_withdraws_last (cfg : Settings) (before : List Event) (w : World)
    (hw : w.inventory = Inventory.after cfg.policy .empty before) (h : Handle) (peer : Option Ip)
    (regs : List Registration) (drifts drifts' : Nat → Drift) :
    let net := reaching cfg peer
    let announced := runAlone (KeepAlive.registerAll h net regs) drifts w
    let withdrawn := runAlone (KeepAlive.shutdown h net announced.1.2) drifts' announced.2
    let met := announced.2.inventory
    let now := withdrawn.2.inventory
    announced.1.1 = regs.length → withdrawn.1.1 = .ok () →
    creations cfg.policy .empty before + (met.size - w.inventory.size) < UInt64.size →
    (∀ id ∈ held announced.1.2, now.Unseen cfg.policy id) ∧
    ∀ r ∈ regs, ∃ a host e, r.request.addresses.getLast? = some a ∧
      publishedHost a.host (peer.map Ip.canonical) cfg.localIp = .ok host ∧
      met.entries.find? (·.service.accepts r.request.service) = some e ∧
      (∃ i ∈ e.instances, i.endpoint = ⟨host, a.port⟩ ∧ i.id ∈ held announced.1.2) ∧
      ¬ now.Shows e.service ⟨host, a.port⟩ := by
  intro net announced withdrawn met now hcount hok hroom
  obtain ⟨es, hes, hmet, hholds⟩ := runAlone_registerAll h hcount
  obtain ⟨fs, hfs, hnow⟩ := runAlone_shutdown h hok
  have hready : Ready cfg.policy w.inventory es := by
    rw [hw]
    refine Inventory.ready_registrations hes ?_
    rw [Inventory.after_append, ← hw, ← hmet]
    exact hroom
  have hwellFormed : met.WellFormed := by
    show announced.2.inventory.WellFormed
    rw [hmet]
    exact hready.wellFormed_after
  have hheld := hholds hready
  rw [← hmet] at hheld
  refine ⟨fun id hid => ?_, fun r hr => ?_⟩
  · obtain ⟨r, -, a, host, -, -, hhouses⟩ := exists_mem_of_forall₂ hheld.flip hid
    have hgiven : id ≤ met.lastId := (hwellFormed.ids_given id hhouses.id_mem).2
    have hspent : now.Spent id := by
      show withdrawn.2.inventory.Spent id
      rw [hnow]
      exact hfs.spent hwellFormed hid hgiven
    exact Inventory.unseen_of_not_mem cfg.policy hspent.gone
  · obtain ⟨id, hid, a, host, ha, hhost, hhouses⟩ := exists_mem_of_forall₂ hheld hr
    obtain ⟨e, hfirst, ⟨i, hi, hendpoint, rfl⟩, hgone⟩ := hhouses.vacated hwellFormed hfs hid
    refine ⟨a, host, e, ha, hhost, hfirst, ⟨i, hi, hendpoint, hid⟩, ?_⟩
    show ¬ withdrawn.2.inventory.Shows e.service ⟨host, a.port⟩
    rw [hnow]
    exact hgone

/-- One request is for a name that was registered with a deploy path before, and its last
    address is the one that it comes from. Another has the same address again. -/
theorem shutdown_withdraws_last_of_two :
    let cfg : Settings := {}
    let registry : Handle := { origin := "http://registry" }
    let kv : Service := ⟨"kv", some "ns/g/kv/7"⟩
    let before : List Event := [⟨1000, .enrol kv ⟨"node-1", 9000⟩ [.tcp]⟩]
    let peer : Option Ip := some (.v4 ⟨10, 0, 0, 9⟩)
    let regs := ofRequests [⟨⟨"kv", none⟩, [⟨"node-2", 9000, [.tcp]⟩, ⟨"", 9000, [.status]⟩]⟩,
      ⟨kv, [⟨"10.0.0.9", 9000, [.grpc]⟩]⟩]
    let drifts : Nat → Drift := fun n => ⟨2000 + UInt64.ofNat n, 0, {}⟩
    let w : World :=
      { clock := 1000, unixTime := 0, inventory := Inventory.after cfg.policy .empty before }
    ∃ announced withdrawn,
      announced = runAlone (KeepAlive.registerAll registry (reaching cfg peer) regs) drifts w ∧
      withdrawn = runAlone (KeepAlive.shutdown registry (reaching cfg peer) announced.1.2) drifts
        announced.2 ∧
      announced.1.1 = 2 ∧ held announced.1.2 = [3, 3] ∧ withdrawn.1.1 = .ok () ∧
      withdrawn.2.inventory.Unseen cfg.policy 3 ∧
      announced.2.inventory.ids = [1, 2, 3] ∧
      ¬ withdrawn.2.inventory.Shows kv ⟨"10.0.0.9", 9000⟩ := by
  intro cfg registry kv before peer regs drifts w
  obtain ⟨hunseen, hlast⟩ := shutdown_withdraws_last cfg before w rfl registry peer regs drifts
    drifts (by decide +kernel) (by decide +kernel) (by decide +kernel)
  obtain ⟨a, host, e, ha, hhost, hfirst, -, hgone⟩ := hlast _ List.mem_cons_self
  obtain rfl : a = ⟨"", 9000, [.status]⟩ := (Option.some.inj ha).symm
  obtain rfl : host = "10.0.0.9" := Except.ok.inj (hhost.symm.trans (by decide +kernel))
  have hservice : e.service = kv :=
    Option.some.inj ((Inventory.find?_services hfirst).symm.trans (by decide +kernel))
  rw [hservice] at hgone
  exact ⟨_, _, rfl, rfl, by decide +kernel, by decide +kernel, by decide +kernel,
    hunseen 3 (by decide +kernel), by decide +kernel, hgone⟩

/-- The first address of a request that announces two is listed after its keep-alive has been
    shut down, since the answer gave the number at the other one. -/
theorem shutdown_leaves_first_address :
    let registry : Handle := { origin := "http://registry" }
    let kv : Service := ⟨"kv", none⟩
    let regs := ofRequests [⟨kv, [⟨"node-1", 9000, [.tcp]⟩, ⟨"node-2", 9000, [.tcp]⟩]⟩]
    let drifts : Nat → Drift := fun n => ⟨2000 + UInt64.ofNat n, 0, {}⟩
    let w : World := { clock := 1000, unixTime := 0 }
    let announced := runAlone (KeepAlive.registerAll registry (reaching {} none) regs) drifts w
    let withdrawn := runAlone (KeepAlive.shutdown registry (reaching {} none) announced.1.2) drifts
      announced.2
    announced.1.1 = regs.length ∧ withdrawn.1.1 = .ok () ∧
      withdrawn.2.inventory.Shows kv ⟨"node-1", 9000⟩ := by
  intro registry kv regs drifts w announced withdrawn
  have hlisted : ∃ e ∈ withdrawn.2.inventory.listing none, e.service = kv ∧
      ∃ i ∈ e.instances, i.endpoint = ⟨"node-1", 9000⟩ := by
    decide +kernel
  exact ⟨by decide +kernel, by decide +kernel, .inl ⟨none, hlisted⟩⟩

end ServiceRegistry.Client
