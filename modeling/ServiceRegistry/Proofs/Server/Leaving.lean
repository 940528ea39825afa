/-
  ServiceRegistry.Proofs.Server.Leaving

  A process that goes away takes with it what it has registered. The notice names a host and
  ports, a registration names addresses, and both are published by the same rule from the
  address that they come from; so what a registration was answered with is exactly what a
  notice for its host and ports removes, whichever services have come to share the addresses
  (`publishedEndpoints_eq`).

  Apart from that the notice is a sweep, and it is none where nothing listens at the ports
  (`runAlone_notice`).
-/
import ServiceRegistry.Proofs.Client.Remote
import ServiceRegistry.Proofs.Server.Promises

namespace ServiceRegistry.Server

open Message Net World

/-! ## One rule for both -/

section

variable {cfg : Settings} {peer : Option Ip}

/-- Where all addresses announce one host, they are published under one. -/
theorem publishedEndpoints_eq {announced host : String} {addresses : List Announcement}
    {endpoints : List Endpoint} (h : publishedEndpoints cfg peer addresses = .ok endpoints)
    (hhosts : ∀ a ∈ addresses, a.host = announced)
    (hhost : publishedHost announced peer cfg.localIp = .ok host) :
    endpoints = addresses.map fun a => ⟨host, a.port⟩ := by
  induction addresses generalizing endpoints with
  | nil => exact (Except.ok.inj h).symm
  | cons a rest ih =>
    obtain ⟨ha, hrest⟩ := List.forall_mem_cons.1 hhosts
    obtain ⟨host', endpoints', hhost', hendpoints, rfl⟩ := publishedEndpoints_cons_ok h
    rw [ha, hhost] at hhost'
    obtain rfl := Except.ok.inj hhost'
    rw [ih hendpoints hrest, List.map_cons]

/-- What a notice for one host and the ports of some addresses is about. -/
theorem listensAt_iff_mem {host : String} {ports : List UInt16} {addresses : List Announcement}
    (hports : ∀ port, port ∈ ports ↔ port ∈ addresses.map (·.port)) (i : Instance) :
    Inventory.listensAt host ports i = true ↔
      i.endpoint ∈ addresses.map fun a => (⟨host, a.port⟩ : Endpoint) := by
  rw [Inventory.listensAt_iff, hports, List.mem_map, List.mem_map]
  constructor
  · rintro ⟨hhost, a, ha, hport⟩
    refine ⟨a, ha, ?_⟩
    rw [← hhost, hport]
  · rintro ⟨a, ha, heq⟩
    rw [← heq]
    exact ⟨rfl, a, ha, rfl⟩

/-- A host under which something was published can be published again. -/
theorem exists_publishedHost {announced : String} {addresses : List Announcement}
    {endpoints : List Endpoint} (h : publishedEndpoints cfg peer addresses = .ok endpoints)
    (hhosts : ∀ a ∈ addresses, a.host = announced) (hsome : addresses ≠ []) :
    ∃ host, publishedHost announced peer cfg.localIp = .ok host := by
  obtain ⟨a, rest, rfl⟩ := List.exists_cons_of_ne_nil hsome
  obtain ⟨host, -, hhost, -, -⟩ := publishedEndpoints_cons_ok h
  rw [hhosts a List.mem_cons_self] at hhost
  exact ⟨host, hhost⟩

/-- A registration that succeeds answers with all its addresses as they are published. -/
theorem notes_register {γ : Type} (does : γ → World → World → Prop) (r : RegisterRequest) :
    Follows (Notes does)
      (fun result _ => ∀ b, result = .ok b →
        r.addresses ≠ [] ∧ publishedEndpoints cfg peer r.addresses = .ok b.addresses) none
      (register cfg peer r) := by
  unfold register
  split
  · exact follows_pure nofun
  rename_i hsome
  split
  · exact follows_pure nofun
  split
  · exact follows_pure nofun
  rename_i endpoints hendpoints
  refine follows_bind (notes_any _) fun result g hg => ?_
  cases result with
  | error e => exact follows_pure nofun
  | ok rs =>
    have hanswer : ∀ b : RegisterResponse,
        (.ok ⟨lastId rs, endpoints⟩ : Except RegistryError RegisterResponse) = .ok b →
          r.addresses ≠ [] ∧ publishedEndpoints cfg peer r.addresses = .ok b.addresses := by
      rintro b ⟨⟩
      exact ⟨hsome, hendpoints⟩
    dsimp only
    split
    · exact follows_bind (notes_any _) fun _ _ _ =>
        follows_bind (notes_any _) fun _ _ _ => follows_pure hanswer
    · exact follows_pure hanswer

/-! ## The notice -/

/-- With no other at work the clock is read after the first drift, and the removal takes place
    after the second. Evictions are counted and published; without any there is nothing to do. -/
theorem runAlone_processShutdown {r : ProcessShutdownRequest} {host : String}
    (hhost : publishedHost (r.host.getD "") peer cfg.localIp = .ok host) (drifts : Nat → Drift)
    (w : World) :
    let removal := w.inventory.withdrawPorts cfg.policy host r.ports (drifts 0).clock
    let left := runAlone (processShutdown cfg peer r) drifts w
    left.1 = .ok ⟨⟩ ∧ left.2.inventory = removal.2 ∧
      (removal.1 = [] → left.2 = { (drifts 1).after w with inventory := removal.2 }) := by
  intro removal left
  let met : World := { (drifts 1).after w with inventory := removal.2 }
  let rest : Work Unit := do
    count (·.countEvictions removal.1)
    refresh cfg
  have hsteps : Steps cfg.policy (fun _ => False) rest :=
    steps_bind (steps_count _) fun _ => steps_refresh cfg
  have hleft : left = runAlone (do
      if !removal.1.isEmpty then
        count (·.countEvictions removal.1)
        refresh cfg
      pure (.ok ⟨⟩)) (fun n => drifts (n + 2)) met := by
    show runAlone (processShutdown cfg peer r) drifts w = _
    rw [processShutdown, hhost]
    rfl
  cases hevicted : removal.1 with
  | nil =>
    rw [hevicted] at hleft
    rw [hleft]
    exact ⟨rfl, rfl, fun _ => rfl⟩
  | cons e es =>
    have hsome : (!removal.1.isEmpty) = true := by rw [hevicted]; rfl
    have hgoes : left
        = runAlone (rest >>= fun _ => pure (.ok ⟨⟩)) (fun n => drifts (n + 2)) met := by
      rw [hleft, if_pos hsome]
      rfl
    rw [hgoes, runAlone_bind_pure]
    refine ⟨rfl, runAlone_inventory cfg.policy hsteps (fun n => drifts (n + 2)) met, ?_⟩
    exact fun hnil => absurd hnil (List.cons_ne_nil e es)

/-- A notice is answered, and leaves nothing that listens at its ports. Where something did, what
    the policy does not keep is swept too; where nothing did, all is as it was. -/
theorem runAlone_notice (hopen : cfg.secret = none) {r : Net.Request}
    {notice : ProcessShutdownRequest} {host : String} (hmethod : r.method = "POST")
    (hpath : r.path = Operation.processShutdown.path)
    (hnotice : readBody ProcessShutdownRequest.decode r = .ok notice)
    (hhost : publishedHost (notice.host.getD "") (peer.map Ip.canonical) cfg.localIp = .ok host)
    (drifts : Nat → Drift) (w : World) :
    let left := runAlone (respond cfg peer r) drifts w
    left.1 = .json 200 (Ack.toJson ⟨⟩) ∧
      left.2.inventory.anyListens host notice.ports = false ∧
      (w.inventory.anyListens host notice.ports = true →
        left.2.inventory = w.inventory.retain fun i =>
          !Inventory.listensAt host notice.ports i && cfg.policy.keeps (drifts 0).clock i) ∧
      (w.inventory.anyListens host notice.ports = false → left.2 = (drifts 1).after w) := by
  intro left
  obtain ⟨hvalue, hinventory, hnone⟩ := runAlone_processShutdown hhost drifts w
  let done := runAlone (processShutdown cfg (peer.map Ip.canonical) notice) drifts w
  have hleft : left = (respondWith Ack.toJson done.1, done.2) :=
    (handles_processShutdown _).runAlone_respond_open hopen hmethod hpath hnotice drifts w
  rw [hleft]
  refine ⟨?_, ?_, fun hany => ?_, fun hany => ?_⟩
  · show respondWith Ack.toJson done.1 = _
    rw [hvalue]
    rfl
  · show done.2.inventory.anyListens host notice.ports = false
    rw [hinventory]
    exact Inventory.anyListens_withdrawPorts ..
  · show done.2.inventory = _
    rw [hinventory]
    exact Inventory.withdrawPorts_eq_retain hany
  · rw [Inventory.withdrawPorts_of_none hany] at hnone
    exact hnone rfl

end

/-- In a registry without a secret, after a registration all of whose addresses announce one
    host, a notice from the same peer that names this host and the ports of the registration
    is answered, whatever requests and passes have been at work in between. It leaves no
    instance at any address that the registration was answered with, of whichever service. The
    other instances stay as they are, except those that the policy does not keep when the
    notice reads the clock; and if nothing was there, nothing changes at all. -/
theorem processShutdown_undoes_register (cfg : Settings) (hopen : cfg.secret = none)
    (episodes : List Episode) (w : World) (ticks more : List Tick) (drifts : Nat → Drift)
    (k : Nat) (peer : Option Ip) (announce leave : Net.Request) (request : RegisterRequest)
    (notice : ProcessShutdownRequest) (host : String) (response : Response)
    (hepisode : episodes[k]? = some (.request peer announce))
    (hannounce : announce.path = Operation.register.path)
    (hrequest : readBody RegisterRequest.decode announce = .ok request)
    (hhosts : ∀ a ∈ request.addresses, a.host = host)
    (hdone : ((atWork cfg episodes w).after ticks).value? k = some (.responded response))
    (hstatus : response.status = 200)
    (hmethod : leave.method = "POST") (hleave : leave.path = Operation.processShutdown.path)
    (hnotice : readBody ProcessShutdownRequest.decode leave = .ok notice)
    (hhost : notice.host.getD "" = host)
    (hports : ∀ port, port ∈ notice.ports ↔ port ∈ request.addresses.map (·.port)) :
    let met := (((atWork cfg episodes w).after ticks).after more).world
    let left := runAlone (respond cfg peer leave) drifts met
    ∃ answer : RegisterResponse, response = .json 200 answer.toJson ∧
      answer.addresses.map (·.port) = request.addresses.map (·.port) ∧
      left.1 = .json 200 (Ack.toJson ⟨⟩) ∧
      (∀ e ∈ left.2.inventory.entries, ∀ i ∈ e.instances, i.endpoint ∉ answer.addresses) ∧
      ((∃ i ∈ met.inventory.instances, i.endpoint ∈ answer.addresses) →
        left.2.inventory = met.inventory.retain fun i =>
          i.endpoint ∉ answer.addresses && cfg.policy.keeps (drifts 0).clock i) ∧
      ((∀ i ∈ met.inventory.instances, i.endpoint ∉ answer.addresses) →
        left.2 = (drifts 1).after met) := by
  intro met left
  have hk : (atWork cfg episodes w).tasks[k]?
      = some ((Episode.request peer announce).concludes cfg) := by
    show (episodes.map (·.concludes cfg))[k]? = _
    rw [List.getElem?_map, hepisode, Option.map_some]
  -- What the registration was answered with.
  obtain ⟨request', hread, hanswers⟩ :=
    exists_takes_of_answered .register hannounce rfl hk hdone hstatus
  rw [hrequest] at hread
  obtain rfl := Except.ok.inj hread
  obtain ⟨answer, -, hresponse, ⟨hsome, hendpoints⟩, -⟩ :=
    hanswers (notes_register (fun (_ : Unit) _ _ => False) request)
  obtain ⟨published, hpublished⟩ := exists_publishedHost hendpoints hhosts hsome
  have haddresses := publishedEndpoints_eq hendpoints hhosts hpublished
  have hmem : ∀ i : Instance, i.endpoint ∈ answer.addresses ↔
      Inventory.listensAt published notice.ports i = true := by
    intro i
    rw [haddresses, listensAt_iff_mem hports]
  -- The notice is published under the same host.
  rw [← hhost] at hpublished
  obtain ⟨hanswered, hgone, hswept, hsame⟩ :=
    runAlone_notice hopen hmethod hleave hnotice hpublished drifts met
  refine ⟨answer, hresponse, ?_, hanswered, ?_, ?_, fun hfree => hsame ?_⟩
  · rw [haddresses, List.map_map]
    rfl
  · intro e he i hi hat
    have hlistens : left.2.inventory.anyListens published notice.ports = true :=
      Inventory.anyListens_iff.2 ⟨i, List.mem_flatMap.2 ⟨e, he, hi⟩, (hmem i).1 hat⟩
    rw [hgone] at hlistens
    cases hlistens
  · rintro ⟨i, hi, hat⟩
    rw [hswept (Inventory.anyListens_iff.2 ⟨i, hi, (hmem i).1 hat⟩)]
    congr 1
    funext j
    have hj : decide (j.endpoint ∈ answer.addresses)
        = Inventory.listensAt published notice.ports j := by
      rw [Bool.eq_iff_iff, decide_eq_true_iff]
      exact hmem j
    rw [decide_not, hj]
  · rw [← Bool.not_eq_true]
    intro hany
    obtain ⟨i, hi, hlistens⟩ := Inventory.anyListens_iff.1 hany
    exact hfree i hi ((hmem i).2 hlistens)

/-- A process announces no host and comes from a loopback address, and another service is
    registered at the address that this stands for. When the process goes away both lose the
    port that they share. -/
theorem processShutdown_undoes_register_shared :
    let cfg : Settings := { localIp := some (.v4 ⟨10, 0, 0, 9⟩) }
    let registry : Client.Handle := { origin := "http://registry" }
    let peer := Ip.ofText? "::ffff:127.0.0.1"
    let request : RegisterRequest :=
      ⟨⟨"kv", none⟩, [⟨"", 9000, [.status]⟩, ⟨"", 9001, [.grpc]⟩]⟩
    let other : RegisterRequest :=
      ⟨⟨"log", none⟩, [⟨"10.0.0.9", 9001, [.tcp]⟩, ⟨"10.0.0.9", 9002, [.tcp]⟩]⟩
    let notice : ProcessShutdownRequest := { ports := [9001, 9000] }
    let episodes : List Episode := [.request peer (registry.call .register request.toJson).request,
      .pass, .request none (registry.call .register other.toJson).request]
    let w : World := { clock := 1000, unixTime := 0 }
    let ticks : List Tick := List.replicate 8 (.proceed 0)
    let more : List Tick := List.replicate 3 (.proceed 1) ++ List.replicate 8 (.proceed 2)
    let drifts : Nat → Drift := fun n => ⟨2000 + UInt64.ofNat n, 0, {}⟩
    let met := (((atWork cfg episodes w).after ticks).after more).world
    let left := runAlone
      (respond cfg peer (registry.call .processShutdown notice.toJson).request) drifts met
    let endpoints : List Endpoint := [⟨"10.0.0.9", 9000⟩, ⟨"10.0.0.9", 9001⟩]
    ((atWork cfg episodes w).after ticks).value? 0
      = some (.responded (.json 200 (RegisterResponse.toJson ⟨2, endpoints⟩))) ∧
    met.inventory.instances.map (·.endpoint)
      = endpoints ++ [⟨"10.0.0.9", 9001⟩, ⟨"10.0.0.9", 9002⟩] ∧
    left.1 = .json 200 (Ack.toJson ⟨⟩) ∧
    left.2.inventory.instances.map (·.endpoint) = [⟨"10.0.0.9", 9002⟩] := by
  intro cfg registry peer request other notice episodes w ticks more drifts met left endpoints
  have hdone : ((atWork cfg episodes w).after ticks).value? 0
      = some (.responded (.json 200 (RegisterResponse.toJson ⟨2, endpoints⟩))) := by
    decide +kernel
  have hhosts : ∀ a ∈ request.addresses, a.host = "" := by decide
  have hports : ∀ port, port ∈ notice.ports ↔ port ∈ request.addresses.map (·.port) := by
    intro port
    simp [notice, request, or_comm]
  obtain ⟨-, -, -, hanswered, -⟩ :=
    processShutdown_undoes_register cfg rfl episodes w ticks more drifts 0 peer
      (registry.call .register request.toJson).request
      (registry.call .processShutdown notice.toJson).request request notice "" _ rfl
      (by decide) (Client.readBody_call registry .register (conveys_registerRequest request))
      hhosts hdone rfl rfl (by decide) (by decide +kernel) rfl hports
  exact ⟨hdone, by decide +kernel, hanswered, by decide +kernel⟩

end ServiceRegistry.Server
