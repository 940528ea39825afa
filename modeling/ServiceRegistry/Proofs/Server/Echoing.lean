/-
  ServiceRegistry.Proofs.Server.Echoing

  Announcing what has been published. A published host is published again as it is, from
  whichever connection it is announced (`publishedHost_again`): it is not empty, and either it
  does not mean the machine it is used on or it is the text of the address of this machine,
  which is published even where that is a loopback address.

  So a service that announces the addresses that it was answered with finds the instances that
  it has, and refreshes them. A notice for such an address removes them.
-/
import ServiceRegistry.Proofs.Client.KeepAlive
import ServiceRegistry.Proofs.PublishedHost
import ServiceRegistry.Proofs.Server.Leaving
import ServiceRegistry.Proofs.Server.Registering

namespace ServiceRegistry

open Inventory (Event Filing Moment Ready)
open Message Net World

/-! ## Hosts -/

section

variable {announced given host : String} {peer localIp : Option Ip}

theorem text_ne_empty (ip : Ip) : ip.text ≠ "" := by
  intro hempty
  have hread := ofText?_text ip
  rw [hempty] at hread
  have hnone : Ip.ofText? "" = none := by rfl
  rw [hnone] at hread
  cases hread

theorem announcedOrPeer_ne_empty (h : announcedOrPeer announced peer = .ok given) :
    given ≠ "" := by
  unfold announcedOrPeer at h
  split at h
  case isTrue =>
    cases peer with
    | none => cases h
    | some ip =>
      obtain rfl := Except.ok.inj h
      exact text_ne_empty ip
  case isFalse hannounced =>
    obtain rfl := Except.ok.inj h
    exact hannounced

theorem announcedOrPeer_of_ne_empty (h : host ≠ "") (peer : Option Ip) :
    announcedOrPeer host peer = .ok host :=
  if_neg h

/-- A published host is published as it is, wherever it is announced from. -/
theorem publishedHost_again (h : publishedHost announced peer localIp = .ok host)
    (peer' : Option Ip) : publishedHost host peer' localIp = .ok host := by
  obtain ⟨given, hgiven, ⟨-, ip, rfl, rfl⟩ | ⟨hother, rfl⟩⟩ := publishedHost_cases h
  case inl =>
    -- Whether or not the text means this machine, it is what is published.
    rw [publishedHost, announcedOrPeer_of_ne_empty (text_ne_empty ip)]
    exact ite_self _
  case inr =>
    rw [publishedHost, announcedOrPeer_of_ne_empty (announcedOrPeer_ne_empty hgiven)]
    exact if_neg (ne_true_of_eq_false hother)

end

/-! ## Instances that are registered again -/

namespace Inventory

section

variable {inv : Inventory} {service : Service} {endpoint : Endpoint} {id id' : InstanceId}

/-- A registration finds one instance at most. -/
theorem Houses.unique (hw : inv.WellFormed) (h : inv.Houses service endpoint id)
    (h' : inv.Houses service endpoint id') : id = id' := by
  obtain ⟨e, i, hfirst, hi, hat, rfl⟩ := h
  obtain ⟨e', i', hfirst', hi', hat', rfl⟩ := h'
  obtain rfl : e = e' := Option.some.inj (hfirst.symm.trans hfirst')
  have hnodup := hw.endpoints_nodup e (List.mem_of_find?_eq_some hfirst)
  rw [List.inj_on_of_nodup_map hnodup hi hi' (hat.trans hat'.symm)]

/-- Where an instance is found does not depend on what may change after its registration. -/
theorem houses_amend_iff {f : Instance → Instance} (hf : ∀ i, SameRegistration i (f i)) :
    (inv.amend f).Houses service endpoint id ↔ inv.Houses service endpoint id := by
  have hfirst : (inv.amend f).entries.find? (·.service.accepts service) =
      (inv.entries.find? (·.service.accepts service)).map fun e =>
        { e with instances := e.instances.map f } := List.find?_map ..
  unfold Houses
  rw [hfirst]
  constructor
  · rintro ⟨e', j, he', hj, hat, hid⟩
    obtain ⟨e, he, rfl⟩ := Option.map_eq_some_iff.1 he'
    obtain ⟨i, hi, rfl⟩ := List.mem_map.1 hj
    exact ⟨e, i, he, hi, (hf i).endpoint_eq.symm.trans hat, (hf i).id_eq.symm.trans hid⟩
  · rintro ⟨e, i, he, hi, hat, hid⟩
    rw [he]
    exact ⟨_, f i, rfl, List.mem_map_of_mem hi, (hf i).endpoint_eq.trans hat,
      (hf i).id_eq.trans hid⟩

/-- Registering endpoints that have their instances refreshes these and does nothing else. -/
theorem after_batch_of_houses (policy : Policy) (hname : service.name ≠ "") {xs : List Filing}
    (hw : inv.WellFormed) (h : ∀ x ∈ xs, ∃ id, inv.Houses service x.endpoint id) :
    ∃ f : Instance → Instance,
      Inventory.after policy inv (xs.map (·.event service)) = inv.amend f ∧
      ∀ i, (∃ x ∈ xs, inv.Houses service x.endpoint i.id ∧ f i = i.refreshed x.now) ∨
        (∀ x ∈ xs, ¬ inv.Houses service x.endpoint i.id) ∧ f i = i := by
  -- Along the registrations; each leaves every instance where the next one looks for it.
  induction xs generalizing inv with
  | nil => exact ⟨fun i => i, inv.amend_self.symm, fun i => .inr ⟨List.forall_mem_nil _, rfl⟩⟩
  | cons x xs ih =>
    obtain ⟨⟨id, hid⟩, hrest⟩ := List.forall_mem_cons.1 h
    let g := onlyAt id (·.refreshed x.now)
    have hg : ∀ i, SameRegistration i (g i) :=
      sameRegistration_onlyAt (fun i => sameRegistration_refreshed i x.now) id
    have hfirst : (Moment.mk (x.event service) inv).after policy = inv.amend g :=
      (hid.enrol policy hw hname rfl).2
    have hhouses : ∀ endpoint id',
        (inv.amend g).Houses service endpoint id' ↔ inv.Houses service endpoint id' :=
      fun _ _ => houses_amend_iff hg
    obtain ⟨f, hafter, hf⟩ := ih (hw.amend hg) fun y hy => by
      simpa only [hhouses] using hrest y hy
    refine ⟨fun i => f (g i), ?_, fun i => ?_⟩
    · rw [List.map_cons, Inventory.after, hfirst, hafter, amend_amend]
    · have hgid : (g i).id = i.id := (hg i).id_eq
      rcases hf (g i) with ⟨y, hy, hfound, heq⟩ | ⟨hnone, heq⟩
      case inl =>
        rw [hhouses, hgid] at hfound
        have htwice : (g i).refreshed y.now = i.refreshed y.now := by
          show (onlyAt id (·.refreshed x.now) i).refreshed y.now = _
          unfold onlyAt
          split <;> rfl
        exact .inl ⟨y, List.mem_cons_of_mem x hy, hfound, heq.trans htwice⟩
      case inr =>
        simp only [hhouses, hgid] at hnone
        by_cases hi : i.id = id
        case pos =>
          refine .inl ⟨x, List.mem_cons_self, hi ▸ hid, heq.trans ?_⟩
          exact if_pos hi
        case neg =>
          refine .inr ⟨List.forall_mem_cons.2 ⟨fun hx => hi (hx.unique hw hid), hnone⟩, ?_⟩
          exact heq.trans (if_neg hi)

/-- While an instance is stored, it is found where it was found at first, and no other is. -/
theorem houses_after_iff {policy : Policy} {es : List Event} (hready : Ready policy inv es)
    (h : ∃ id ∈ (Inventory.after policy inv es).ids, inv.Houses service endpoint id) :
    (Inventory.after policy inv es).Houses service endpoint id' ↔
      inv.Houses service endpoint id' := by
  obtain ⟨id, hid, hfound⟩ := h
  have hthere := hfound.run hready hid
  constructor
  · intro h
    rwa [h.unique hready.wellFormed_after hthere]
  · intro h
    rwa [h.unique hready.wellFormed hfound]

/-- What has been there after registrations tells that there were numbers for all of them, and
    so for what comes after them. -/
theorem ready_registrations_append {policy : Policy} {before es following : List Event}
    (h : ∀ e ∈ es, e.Registers) :
    let met := Inventory.after policy empty before
    let inv := Inventory.after policy met es
    creations policy empty before + (inv.size - met.size) + creations policy inv following
      < UInt64.size → Ready policy met (es ++ following) := by
  intro met inv hroom
  have hsize : inv.size = creations policy met es + met.size := size_after_registrations h met
  have hall : creations policy empty (before ++ (es ++ following)) < UInt64.size := by
    rw [creations_append, creations_append]
    show _ + (creations policy met es + creations policy inv following) < _
    omega
  exact (ready_empty hall).append_right

/-- What is left out at an endpoint cannot be found there any more. -/
theorem Houses.not_mem_retain (hw : inv.WellFormed) (h : inv.Houses service endpoint id)
    {p : Instance → Bool} (hp : ∀ i, i.endpoint = endpoint → p i = false) :
    id ∉ (inv.retain p).ids := by
  intro hmem
  obtain ⟨e, i, hfirst, hi, hat, rfl⟩ := h
  obtain ⟨s, j, hj, hid⟩ := mem_ids.1 hmem
  obtain ⟨hj, hkept⟩ := mem_stored_retain.1 hj
  have hi : (e.service, i) ∈ inv.stored :=
    mem_stored.2 ⟨e, List.mem_of_find?_eq_some hfirst, rfl, hi⟩
  obtain ⟨-, rfl⟩ := eq_of_id_eq hw.ids_nodup hj hi hid
  rw [hp j hat] at hkept
  cases hkept

theorem Houses.anyListens (h : inv.Houses service endpoint id) {ports : List UInt16}
    (hport : endpoint.port ∈ ports) : inv.anyListens endpoint.host ports = true := by
  obtain ⟨e, i, hfirst, hi, rfl, -⟩ := h
  have hmem : i ∈ inv.instances :=
    mem_instances.2 ⟨e.service, mem_stored.2 ⟨e, List.mem_of_find?_eq_some hfirst, rfl, hi⟩⟩
  exact anyListens_iff.2 ⟨i, hmem, listensAt_iff.2 ⟨rfl, hport⟩⟩

end

end Inventory
/-! ## Addresses that are announced again -/

/-- The endpoint that an announcement names. -/
def Message.Announcement.endpoint (a : Announcement) : Endpoint := ⟨a.host, a.port⟩

namespace Server

section

variable {cfg : Settings} {peer : Option Ip} {r : RegisterRequest} {answer : RegisterResponse}
variable {drifts : Nat → Drift} {w : World}

/-- Hosts that are published as they are make endpoints that are. -/
theorem publishedEndpoints_of_published {addresses : List Announcement}
    (h : ∀ a ∈ addresses, publishedHost a.host peer cfg.localIp = .ok a.host) :
    publishedEndpoints cfg peer addresses = .ok (addresses.map (·.endpoint)) := by
  induction addresses with
  | nil => rfl
  | cons a rest ih =>
    obtain ⟨ha, hrest⟩ := List.forall_mem_cons.1 h
    have htail := ih hrest
    unfold publishedEndpoints at htail ⊢
    rw [List.mapM_cons, ha, htail]
    rfl

/-- What is answered to a registration is published as it is, and each address of it has an
    instance that a registration finds. -/
theorem houses_of_register (h : (runAlone (register cfg peer r) drifts w).1 = .ok answer) :
    r.service.name ≠ "" ∧
    (∀ endpoint ∈ answer.addresses, ∀ peer',
      publishedHost endpoint.host peer' cfg.localIp = .ok endpoint.host) ∧
    ∃ es, (∀ e ∈ es, e.Registers) ∧
      let inv' := Inventory.after cfg.policy w.inventory es
      (runAlone (register cfg peer r) drifts w).2.inventory = inv' ∧
        (Ready cfg.policy w.inventory es →
          ∀ endpoint ∈ answer.addresses, ∃ id, inv'.Houses r.service endpoint id) := by
  obtain ⟨xs, x, hfulfils, -, hname, hlast, hanswer, hinventory, -⟩ := runAlone_register h
  rw [hanswer]
  refine ⟨hname, fun endpoint hmem peer' => ?_, xs.map (·.event r.service),
    Inventory.registers_batch r.service xs, hinventory, fun hready endpoint hmem => ?_⟩
  · obtain ⟨y, hy, rfl⟩ := List.mem_map.1 hmem
    obtain ⟨a, -, hya⟩ := Client.exists_mem_of_forall₂ hfulfils.flip hy
    exact publishedHost_again hya.host_eq peer'
  · obtain ⟨y, hy, rfl⟩ := List.mem_map.1 hmem
    obtain ⟨before, e, e', after, new, hbatched⟩ :=
      Inventory.batched_after hname (List.ne_nil_of_mem hy) hready
    obtain ⟨i, hi, hat⟩ := hbatched.exists_instance hy
    exact ⟨i.id, e', i, hbatched.find?_eq, hi, hat, rfl⟩

theorem exists_drift_of_mem_filings {addresses : List (Endpoint × List Capability)} {x : Filing}
    (hx : x ∈ filings drifts addresses) : ∃ n, x.now = (drifts n).clock := by
  obtain ⟨k, hk, rfl⟩ := List.mem_mapIdx.1 hx
  exact ⟨2 * k, rfl⟩

variable (drifts) in
/-- A registration of addresses that are published as they are and have their instances is
    answered with the number of the last one, refreshes these instances and does nothing else. -/
theorem runAlone_register_housed (hname : r.service.name ≠ "") (haddresses : r.addresses ≠ [])
    (hpublished : ∀ a ∈ r.addresses, publishedHost a.host peer cfg.localIp = .ok a.host)
    (hw : w.inventory.WellFormed)
    (hhoused : ∀ a ∈ r.addresses, ∃ id, w.inventory.Houses r.service a.endpoint id) :
    let done := runAlone (register cfg peer r) drifts w
    (∃ a id, r.addresses.getLast? = some a ∧ w.inventory.Houses r.service a.endpoint id ∧
      done.1 = .ok ⟨id, r.addresses.map (·.endpoint)⟩) ∧
    ∃ f : Instance → Instance, done.2.inventory = w.inventory.amend f ∧ ∀ i,
      (∃ a ∈ r.addresses, w.inventory.Houses r.service a.endpoint i.id ∧
        ∃ n, f i = i.refreshed (drifts n).clock) ∨
      (∀ a ∈ r.addresses, ¬ w.inventory.Houses r.service a.endpoint i.id) ∧ f i = i := by
  intro done
  have hendpoints := publishedEndpoints_of_published hpublished
  let requested := (r.addresses.map (·.endpoint)).zip (r.addresses.map (·.capabilities))
  let xs := filings drifts requested
  obtain ⟨rs, hvalue, hinventory, hanswers⟩ :=
    runAlone_enrolAll cfg.policy hname requested drifts w
  obtain ⟨hanswer, hsame⟩ := runAlone_register_eq haddresses hname hendpoints hvalue
  obtain ⟨-, hxs⟩ := fulfils_filings drifts hendpoints
  have hat : ∀ x ∈ xs, ∃ a ∈ r.addresses, x.endpoint = a.endpoint := by
    intro x hx
    have hmem : x.endpoint ∈ r.addresses.map (·.endpoint) := hxs ▸ List.mem_map_of_mem hx
    obtain ⟨a, ha, heq⟩ := List.mem_map.1 hmem
    exact ⟨a, ha, heq.symm⟩
  have hhousedxs : ∀ x ∈ xs, ∃ id, w.inventory.Houses r.service x.endpoint id := by
    intro x hx
    obtain ⟨a, ha, heq⟩ := hat x hx
    rw [heq]
    exact hhoused a ha
  obtain ⟨f, hafter, hf⟩ := Inventory.after_batch_of_houses cfg.policy hname hw hhousedxs
  have hsameRegistration : ∀ i, Inventory.SameRegistration i (f i) := by
    intro i
    rcases hf i with ⟨x, -, -, heq⟩ | ⟨-, heq⟩
    · rw [heq]
      exact Inventory.sameRegistration_refreshed i x.now
    · rw [heq]
      exact .refl i
  constructor
  · -- The number answered is found at the last address, and it was found there before.
    let a := r.addresses.getLast haddresses
    have ha : r.addresses.getLast? = some a := List.getLast?_eq_some_getLast haddresses
    have hlast : (xs.map (·.endpoint)).getLast? = some a.endpoint := by
      rw [hxs, List.getLast?_map, ha]
      rfl
    rw [List.getLast?_map] at hlast
    obtain ⟨x, hx, hxa⟩ := Option.map_eq_some_iff.1 hlast
    have hfound := houses_lastId cfg.policy hname hx hanswers
    rw [hafter, Inventory.houses_amend_iff hsameRegistration, hxa] at hfound
    exact ⟨a, lastId rs, ha, hfound, hanswer⟩
  · refine ⟨f, (hsame.trans hinventory).trans hafter, fun i => ?_⟩
    rcases hf i with ⟨x, hx, hfound, heq⟩ | ⟨hnone, heq⟩
    · obtain ⟨a, ha, hxa⟩ := hat x hx
      obtain ⟨n, hnow⟩ := exists_drift_of_mem_filings hx
      exact .inl ⟨a, ha, hxa ▸ hfound, n, hnow ▸ heq⟩
    · refine .inr ⟨fun a ha hfound => ?_, heq⟩
      have hmem : a.endpoint ∈ xs.map (·.endpoint) := hxs ▸ List.mem_map_of_mem ha
      obtain ⟨x, hx, hxa⟩ := List.mem_map.1 hmem
      exact hnone x hx (hxa ▸ hfound)

/-- A notice for where an instance listens removes it. -/
theorem runAlone_processShutdown_housed {service : Service} {endpoint : Endpoint}
    {id : InstanceId} {ports : List UInt16}
    (hpublished : publishedHost endpoint.host peer cfg.localIp = .ok endpoint.host)
    (hw : w.inventory.WellFormed) (hhoused : w.inventory.Houses service endpoint id)
    (hport : endpoint.port ∈ ports) :
    let left := runAlone (processShutdown cfg peer ⟨some endpoint.host, ports⟩) drifts w
    left.1 = .ok ⟨⟩ ∧ id ∉ left.2.inventory.ids ∧
      left.2.inventory = w.inventory.retain fun i =>
        !Inventory.listensAt endpoint.host ports i && cfg.policy.keeps (drifts 0).clock i := by
  intro left
  obtain ⟨hvalue, hinventory, -⟩ := runAlone_processShutdown
    (r := ⟨some endpoint.host, ports⟩) hpublished drifts w
  have hretained := hinventory.trans (Inventory.withdrawPorts_eq_retain (hhoused.anyListens hport))
  refine ⟨hvalue, ?_, hretained⟩
  show id ∉ (runAlone _ drifts w).2.inventory.ids
  rw [hretained]
  refine hhoused.not_mem_retain hw fun i hat => ?_
  have hlistens : Inventory.listensAt endpoint.host ports i = true :=
    Inventory.listensAt_iff.2 ⟨congrArg Endpoint.host hat, by rwa [hat]⟩
  rw [hlistens, Bool.not_true, Bool.false_and]

end

/-! ## Echoes -/

/-- A published host is published as it is, from whichever peer. So, in a registry that was empty
    at first, let a service be registered and let anything happen after that. If the service
    announces addresses that it was answered with, in any order and with any capabilities, and
    their instances are still there, then these are refreshed, the last one is answered, and
    nothing else changes, from whichever peer the request comes. A notice for one of these
    addresses removes the instance at it. -/
theorem published_again (cfg : Settings) (before between : List Event) (w later : World)
    (hw : w.inventory = Inventory.after cfg.policy .empty before) (peer : Option Ip)
    (r : RegisterRequest) (answer : RegisterResponse) (drifts : Nat → Drift) :
    let done := runAlone (register cfg peer r) drifts w
    let met := done.2.inventory
    (∀ announced peer localIp host, publishedHost announced peer localIp = .ok host →
      ∀ peer', publishedHost host peer' localIp = .ok host) ∧
    (done.1 = .ok answer → later.inventory = Inventory.after cfg.policy met between →
      Inventory.creations cfg.policy .empty before + (met.size - w.inventory.size)
        + Inventory.creations cfg.policy met between < UInt64.size →
      (∀ endpoint ∈ answer.addresses, ∃ id, met.Houses r.service endpoint id) ∧
      ∀ (peer' : Option Ip) (drifts' : Nat → Drift),
        (∀ again : RegisterRequest, again.service = r.service → again.addresses ≠ [] →
          (∀ a ∈ again.addresses, a.endpoint ∈ answer.addresses ∧
            ∃ id ∈ later.inventory.ids, met.Houses r.service a.endpoint id) →
          let echoed := runAlone (register cfg peer' again) drifts' later
          (∃ a id, again.addresses.getLast? = some a ∧ met.Houses r.service a.endpoint id ∧
            echoed.1 = .ok ⟨id, again.addresses.map (·.endpoint)⟩) ∧
          ∃ f : Instance → Instance, echoed.2.inventory = later.inventory.amend f ∧ ∀ i,
            (∃ a ∈ again.addresses, met.Houses r.service a.endpoint i.id ∧
              ∃ n, f i = i.refreshed (drifts' n).clock) ∨
            (∀ a ∈ again.addresses, ¬ met.Houses r.service a.endpoint i.id) ∧ f i = i) ∧
        ∀ endpoint ∈ answer.addresses, ∀ id ∈ later.inventory.ids,
          met.Houses r.service endpoint id → ∀ ports, endpoint.port ∈ ports →
          let left := runAlone (processShutdown cfg peer' ⟨some endpoint.host, ports⟩) drifts' later
          left.1 = .ok ⟨⟩ ∧ id ∉ left.2.inventory.ids ∧
            left.2.inventory = later.inventory.retain fun i =>
              !Inventory.listensAt endpoint.host ports i
                && cfg.policy.keeps (drifts' 0).clock i) := by
  intro done met
  refine ⟨fun _ _ _ _ h => publishedHost_again h, fun hanswer hlater hroom => ?_⟩
  obtain ⟨hname, hpublished, es, hes, hmet, hhoused⟩ := houses_of_register hanswer
  -- There are numbers for all that has been created, by the registration and after it.
  have hall : Ready cfg.policy w.inventory (es ++ between) := by
    rw [hw]
    refine Inventory.ready_registrations_append hes ?_
    rw [← hw, ← hmet]
    exact hroom
  have hready : Ready cfg.policy met between := by
    have hrest := hall.append_right
    rwa [← hmet] at hrest
  have hwellFormed : later.inventory.WellFormed := by
    rw [hlater]
    exact hready.wellFormed_after
  have hsame : ∀ endpoint id', (∃ id ∈ later.inventory.ids, met.Houses r.service endpoint id) →
      (later.inventory.Houses r.service endpoint id' ↔ met.Houses r.service endpoint id') := by
    rw [hlater]
    exact fun _ _ => Inventory.houses_after_iff hready
  refine ⟨fun endpoint hmem => ?_, fun peer' drifts' =>
    ⟨fun again hservice haddresses hknown => ?_, fun endpoint hmem id hid hfound ports hport => ?_⟩⟩
  · obtain ⟨id, hid⟩ := hhoused hall.append_left endpoint hmem
    rw [← hmet] at hid
    exact ⟨id, hid⟩
  · intro echoed
    have hthere : ∀ a ∈ again.addresses, ∀ id,
        later.inventory.Houses again.service a.endpoint id ↔
          met.Houses r.service a.endpoint id := by
      intro a ha id
      rw [hservice]
      exact hsame a.endpoint id (hknown a ha).2
    have hhousedAgain : ∀ a ∈ again.addresses, ∃ id,
        later.inventory.Houses again.service a.endpoint id := by
      intro a ha
      obtain ⟨-, id, -, hfound⟩ := hknown a ha
      exact ⟨id, (hthere a ha id).2 hfound⟩
    have hhosts : ∀ a ∈ again.addresses, publishedHost a.host peer' cfg.localIp = .ok a.host :=
      fun a ha => hpublished a.endpoint (hknown a ha).1 peer'
    obtain ⟨⟨a, id, hlast, hfound, hvalue⟩, f, hinventory, hf⟩ :=
      runAlone_register_housed drifts' (hservice ▸ hname) haddresses hhosts hwellFormed
        hhousedAgain
    refine ⟨⟨a, id, hlast, (hthere a (List.mem_of_getLast? hlast) id).1 hfound, hvalue⟩, f,
      hinventory, fun i => ?_⟩
    rcases hf i with ⟨b, hb, hfound, hn⟩ | ⟨hnone, heq⟩
    · exact .inl ⟨b, hb, (hthere b hb i.id).1 hfound, hn⟩
    · exact .inr ⟨fun b hb hfound => hnone b hb ((hthere b hb i.id).2 hfound), heq⟩
  · exact runAlone_processShutdown_housed (hpublished endpoint hmem peer') hwellFormed
      ((hsame endpoint id ⟨id, hid, hfound⟩).2 hfound) hport

/-- `LocalHost` and the address of the peer are announced, and both are published as texts of
    addresses of eight groups. They are announced again in the other order, by no known peer,
    after another service has come to the first one. -/
theorem published_again_localName :
    let cfg : Settings := { localIp := some (.v6 ⟨[0x2001, 0xdb8, 0, 0, 0, 0, 0, 5], rfl⟩) }
    let peer : Ip := .v6 ⟨[0xfe80, 0, 0, 0, 0, 0, 0, 1], rfl⟩
    let kv : Service := ⟨"kv", none⟩
    let own : Endpoint := ⟨"2001:db8::5", 9000⟩
    let other : Endpoint := ⟨"fe80::1", 9001⟩
    let r : RegisterRequest := ⟨kv, [⟨"LocalHost", 9000, [.tcp]⟩, ⟨"", 9001, [.status]⟩]⟩
    let again : RegisterRequest := ⟨kv, [⟨"fe80::1", 9001, []⟩, ⟨"2001:db8::5", 9000, [.grpc]⟩]⟩
    let between : List Event :=
      [⟨3000, .enrol ⟨"log", none⟩ own [.tcp]⟩, ⟨3500, .noteProbe 1 false⟩]
    let drifts : Nat → Drift := fun n => ⟨2000 + UInt64.ofNat n, 0, {}⟩
    let w : World := { clock := 1000, unixTime := 0 }
    let done := runAlone (register cfg (some peer) r) drifts w
    let inventory := Inventory.after cfg.policy done.2.inventory between
    let later : World := { clock := 4000, unixTime := 0, inventory }
    let echoed := runAlone (register cfg none again) drifts later
    let left := runAlone (processShutdown cfg none ⟨some "2001:db8::5", [9000]⟩) drifts later
    done.1 = .ok ⟨2, [own, other]⟩ ∧
    publishedHost "2001:db8::5" none cfg.localIp = .ok "2001:db8::5" ∧
    ∃ id, done.2.inventory.Houses kv own id ∧ echoed.1 = .ok ⟨id, [other, own]⟩ ∧
      left.1 = .ok ⟨⟩ ∧ id ∉ left.2.inventory.ids := by
  intro cfg peer kv own other r again between drifts w done inventory later echoed left
  have hanswer : done.1 = .ok ⟨2, [own, other]⟩ := by decide +kernel
  have hroom : Inventory.creations cfg.policy .empty [] + (done.2.inventory.size - w.inventory.size)
      + Inventory.creations cfg.policy done.2.inventory between < UInt64.size := by
    decide +kernel
  have hkept : done.2.inventory.ids ⊆ inventory.ids := by decide +kernel
  obtain ⟨hhosts, hechoes⟩ := published_again cfg [] between w later rfl (some peer) r
    ⟨2, [own, other]⟩ drifts
  have hhost : publishedHost "2001:db8::5" none cfg.localIp = .ok "2001:db8::5" :=
    hhosts "LocalHost" (some peer) cfg.localIp _ (by rfl) none
  have hdone : runAlone (register cfg (some peer) r) drifts w = done := rfl
  rw [hdone] at hechoes
  clear_value done
  obtain ⟨hhoused, hagain⟩ := hechoes hanswer rfl hroom
  obtain ⟨hregister, hnotice⟩ := hagain none drifts
  have hknown : ∀ a ∈ again.addresses, a.endpoint ∈ [own, other] ∧
      ∃ id ∈ later.inventory.ids, done.2.inventory.Houses kv a.endpoint id := by
    intro a ha
    have hmem : a.endpoint ∈ [own, other] := by
      revert a
      decide
    obtain ⟨id, hid⟩ := hhoused a.endpoint hmem
    exact ⟨hmem, id, hkept hid.id_mem, hid⟩
  obtain ⟨⟨a, id, hlast, hfound, hvalue⟩, -⟩ := hregister again rfl (by decide) hknown
  obtain rfl := Option.some.inj hlast
  obtain ⟨hleft, hgone, -⟩ :=
    hnotice own (by decide) id (hkept hfound.id_mem) hfound [9000] (by decide)
  exact ⟨hanswer, hhost, id, hfound, hvalue, hleft, hgone⟩

end Server

end ServiceRegistry
