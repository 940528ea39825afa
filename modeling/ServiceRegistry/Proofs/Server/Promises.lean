/-
  ServiceRegistry.Proofs.Server.Promises

  What an answer with status 200 promises, however the steps of requests and passes alternate.
  Hiding and sweeping are one step in every operation that removes instances, so no hidden
  instance is ever stored between two steps; what was named is gone when the request has been
  answered, and what answers show is there and not hidden when they look.

  A request that is answered with 200 has been let in, read and carried out
  (`exists_takes_of_answered`), so what it has done to the inventory can be read off the
  steps of its handler.
-/
import ServiceRegistry.Client.Registry
import ServiceRegistry.Proofs.Inventory.Removal
import ServiceRegistry.Proofs.Server.Episodes
import ServiceRegistry.Proofs.Server.Registering
import ServiceRegistry.Proofs.World.Crew

namespace ServiceRegistry

/-! ## Addresses on offer -/

namespace Inventory

/-- An address is that of an instance that is stored and not disabled: it has its host, its
    port and its capabilities. -/
def Offers (inv : Inventory) (a : Message.Address) : Prop :=
  ∃ s i, (s, i) ∈ inv.stored ∧ i.disabled = false ∧
    a = ⟨i.endpoint.host, i.endpoint.port, i.capabilities⟩

theorem offers_of_mem_visible {inv : Inventory} {e : Entry} (he : e ∈ inv.entries)
    {a : Message.Address} (ha : a ∈ (Message.Listing.ofEntry e.visible).addresses) :
    inv.Offers a := by
  obtain ⟨i, hi, rfl⟩ := List.mem_map.1 ha
  obtain ⟨hi, hvisible⟩ := List.mem_filter.1 hi
  refine ⟨e.service, i, mem_stored.2 ⟨e, he, rfl, hi⟩, ?_, rfl⟩
  rwa [Instance.isVisible, Bool.not_eq_true'] at hvisible

end Inventory

namespace Server

open Inventory (Event Moment)
open Message Net World

/-! ## Steps of handlers -/

section

variable {cfg : Settings}

theorem notes_deregister (r : DeregisterRequest) :
    Follows (Notes (Performs (tries fun now inv => inv.withdraw cfg.policy r.instanceId now)))
      (fun result g => ∀ b, result = .ok b → ∃ evicted, g = some (.ok evicted)) none
      (deregister cfg r) := by
  refine follows_bind (notes_tryInventory _ none) fun result g hg => ?_
  cases result with
  | error e => exact follows_pure nofun
  | ok evicted => exact (notes_any _).mono fun _ g' hkept _ _ => ⟨evicted, hkept.trans hg⟩

theorem notes_processShutdown {peer : Option Ip} {r : ProcessShutdownRequest} {host : String}
    (hhost : publishedHost (r.host.getD "") peer cfg.localIp = .ok host) :
    Follows (Notes (Performs fun now inv => inv.withdrawPorts cfg.policy host r.ports now))
      (fun result g => ∀ b, result = .ok b → ∃ evicted, g = some evicted) none
      (processShutdown cfg peer r) := by
  unfold processShutdown
  rw [hhost]
  refine follows_bind (notes_onInventory _ none) fun evicted g hg => ?_
  exact (notes_any _).mono fun _ g' hkept _ _ => ⟨evicted, hkept.trans hg⟩

/-- A query answers what it has seen. -/
theorem notes_query {α β : Type} (f : Inventory → α) (answer : α → Except RegistryError β) :
    Follows (Notes (Performs fun _ inv => (f inv, inv)))
      (fun result g => ∀ b, result = .ok b → ∃ seen, g = some seen ∧ answer seen = .ok b) none
      (do pure (answer (← look f))) := by
  refine follows_bind (notes_look f none) fun seen g hg => ?_
  exact follows_pure fun b hb => ⟨seen, hg, hb⟩

end

/-! ## Requests that are answered -/

/-- What an episode comes to: the response to a request, or what a pass has found. -/
inductive Conclusion
  | responded (response : Response)
  | surveyed (report : Supervision.Report)
  deriving DecidableEq, Repr

/-- The activity of an episode, with what it comes to. -/
def Episode.concludes (cfg : Settings) : Episode → Work Conclusion
  | request peer r => do pure (.responded (← respond cfg peer r))
  | pass => do pure (.surveyed (← Supervision.pass cfg))

/-- Requests and passes that begin in a world. -/
def atWork (cfg : Settings) (episodes : List Episode) (w : World) : Crew Conclusion :=
  ⟨w, episodes.map (·.concludes cfg)⟩

theorem steps_concludes (cfg : Settings) (episode : Episode) :
    Steps cfg.policy LeavesNoneHidden (episode.concludes cfg) := by
  cases episode with
  | request peer r =>
    have hrespond : Steps cfg.policy LeavesNoneHidden (respond cfg peer r) :=
      (steps_respond peer r).mono fun _ => Requested.leavesNoneHidden
    exact steps_bind hrespond fun _ => steps_pure _
  | pass =>
    exact steps_bind (steps_pass (fun _ _ => nofun) fun _ _ _ _ => nofun) fun _ => steps_pure _

section

variable {cfg : Settings} {peer : Option Ip} {r : Request}
variable {α β γ : Type} {decode : Json.Decoder α} {encode : β → Json}
variable {handler : α → Work (Except RegistryError β)}
variable {rule : γ → World → World → γ → Prop} {post : β → γ → Prop} {g : γ}

/-- An answer with status 200 gives the value of the handler. -/
def Delivers (decode : Json.Decoder α) (encode : β → Json) (r : Request) (post : β → γ → Prop)
    (response : Response) (g : γ) : Prop :=
  response.status = 200 → (∃ a, readBody decode r = .ok a) ∧
    ∃ b, response = .json 200 (encode b) ∧ post b g

theorem follows_serve
    (h : ∀ a, readBody decode r = .ok a →
      Follows rule (fun result g' => ∀ b, result = .ok b → post b g') g (handler a)) :
    Follows rule (Delivers decode encode r post) g (serve decode encode handler r) := by
  unfold serve
  cases hread : readBody decode r with
  | error response =>
    exact follows_pure fun hstatus => absurd hstatus (status_of_readBody_error hread)
  | ok a =>
    refine follows_bind (h a hread) fun result g' hg => follows_pure fun hstatus => ?_
    cases result with
    | error e =>
      have hkind : e.kind.status ≠ 200 := by cases e <;> exact nofun
      exact absurd hstatus hkind
    | ok b => exact ⟨⟨a, hread⟩, b, rfl, hg b rfl⟩

/-- A request for an operation that is answered with 200 has been let in and dispatched. -/
theorem follows_respond {op : Operation} (hpath : r.path = op.path)
    (hop : operate cfg (peer.map Ip.canonical) r op = serve decode encode handler r)
    (hidle : ∀ w, rule g w w g)
    (h : ∀ a, readBody decode r = .ok a →
      Follows rule (fun result g' => ∀ b, result = .ok b → post b g') g (handler a)) :
    Follows rule (Delivers decode encode r post) g (respond cfg peer r) := by
  have hdispatch : Follows rule (fun response g' => Delivers decode encode r post
      { response with allow := methodMismatch? r } g') g
      (dispatch cfg (peer.map Ip.canonical) r) := by
    unfold dispatch
    rw [hpath, ofPath?_path]
    dsimp only
    split
    case isTrue hmethod =>
      have hpost : r.method = "POST" := by simpa [Resource.methods] using hmethod
      rw [hop]
      refine (follows_serve h).mono fun response g' hdelivers hstatus => ?_
      obtain ⟨hread, b, rfl, hb⟩ := hdelivers hstatus
      exact ⟨hread, b, by rw [methodMismatch?_of_post hpost hpath]; rfl, hb⟩
    case isFalse =>
      have hrefused : (405 : Nat) ≠ 200 := by decide
      exact follows_pure fun hstatus => absurd hstatus hrefused
  refine follows_bind ?_ fun response g' hresponse => follows_pure hresponse
  unfold guarded
  split
  case h_1 secret permission _ _ =>
    have hclock : Follows rule (fun _ g' => g' = g) g (Activity.observe World.unixTime) :=
      follows_observe fun w => ⟨g, hidle w, rfl⟩
    refine follows_bind hclock fun now g' hg => ?_
    subst hg
    split
    case h_1 status hrefusal =>
      exact follows_pure fun hstatus => absurd hstatus (status_of_refusal? hrefusal)
    case h_2 => exact hdispatch
  case h_2 => exact hdispatch

end

section

variable {cfg : Settings} {peer : Option Ip} {r : Request} (op : Operation)
variable {α β : Type} {decode : Json.Decoder α} {encode : β → Json}
variable {handler : α → Work (Except RegistryError β)}
variable {crew : Crew Conclusion} {k : Nat} {ticks : List Tick} {response : Response}

theorem exists_takes_of_delivers {γ : Type} (hpath : r.path = op.path)
    (hop : operate cfg (peer.map Ip.canonical) r op = serve decode encode handler r)
    (hk : crew.tasks[k]? = some ((Episode.request peer r).concludes cfg))
    (hdone : (crew.after ticks).value? k = some (.responded response))
    {does : γ → World → World → Prop} {post : β → Option γ → Prop}
    (h : ∀ a, readBody decode r = .ok a →
      Follows (Notes does) (fun result g => ∀ b, result = .ok b → post b g) none (handler a)) :
    ∃ g, Delivers decode encode r post response g ∧
      ∀ v, g = some v → crew.Takes k ticks (does v) := by
  have hconcludes : Follows (Notes does)
      (fun c g => ∀ response, c = .responded response → Delivers decode encode r post response g)
      none ((Episode.request peer r).concludes cfg) := by
    refine follows_bind (follows_respond hpath hop (fun _ => .inl rfl) h) fun response g hg => ?_
    refine follows_pure ?_
    rintro _ ⟨⟩
    exact hg
  obtain ⟨g, hpost, hnote⟩ := exists_takes_of_done hk hconcludes hdone
  refine ⟨g, hpost response rfl, fun v hv => ?_⟩
  rcases hnote with rfl | ⟨u, rfl, htakes⟩
  · cases hv
  · rwa [← Option.some.inj hv]

/-- The body of a request that is answered with 200 has been read, and whatever its handler
    notes it has done in one of its steps. -/
theorem exists_takes_of_answered (hpath : r.path = op.path)
    (hop : operate cfg (peer.map Ip.canonical) r op = serve decode encode handler r)
    (hk : crew.tasks[k]? = some ((Episode.request peer r).concludes cfg))
    (hdone : (crew.after ticks).value? k = some (.responded response))
    (hstatus : response.status = 200) :
    ∃ a, readBody decode r = .ok a ∧
      ∀ {γ : Type} {does : γ → World → World → Prop} {post : β → Option γ → Prop},
        Follows (Notes does) (fun result g => ∀ b, result = .ok b → post b g) none (handler a) →
        ∃ b g, response = .json 200 (encode b) ∧ post b g ∧
          ∀ v, g = some v → crew.Takes k ticks (does v) := by
  cases hread : readBody decode r with
  | error refused =>
    -- What cannot be read is not answered with 200.
    have hnone : ∀ a, readBody decode r = .ok a → Follows (Notes fun (_ : Unit) _ _ => False)
        (fun result g => ∀ b, result = .ok b → True) none (handler a) := by
      intro a ha
      rw [hread] at ha
      cases ha
    obtain ⟨g, hdelivers, -⟩ := exists_takes_of_delivers op hpath hop hk hdone hnone
    obtain ⟨⟨a, ha⟩, -⟩ := hdelivers hstatus
    rw [hread] at ha
    cases ha
  | ok a =>
    refine ⟨a, rfl, fun {γ does post} h => ?_⟩
    have hall : ∀ a', readBody decode r = .ok a' →
        Follows (Notes does) (fun result g => ∀ b, result = .ok b → post b g) none
          (handler a') := by
      intro a' ha'
      rw [hread] at ha'
      rwa [← Except.ok.inj ha']
    obtain ⟨g, hdelivers, htakes⟩ := exists_takes_of_delivers op hpath hop hk hdone hall
    obtain ⟨-, b, hresponse, hb⟩ := hdelivers hstatus
    exact ⟨b, g, hresponse, hb, htakes⟩

end

theorem addresses_of_lookupAnswer {name : String} {entries : List Entry} {answer : Listing}
    (h : lookupAnswer name entries = .ok answer) :
    answer.addresses = entries.flatMap fun e => (Listing.ofEntry e).addresses := by
  unfold lookupAnswer at h
  cases haddresses : entries.flatMap fun e => (Listing.ofEntry e).addresses with
  | nil =>
    rw [haddresses] at h
    cases entries <;> cases h
  | cons a as =>
    rw [haddresses] at h
    cases entries with
    | nil => cases h
    | cons e es =>
      cases h
      rfl

/-! ## Promises -/

/-- What an answer with status 200 means. The request `took` the steps of which something is
    said, and `now` is the inventory at any time after it was answered.

      * What was to be removed is gone.
      * When the notice of a process that goes away was carried out, nothing listened at the
        ports that it names; whatever listens there now has been registered since.
      * A list, the targets found and the addresses looked up are those of one moment, and
        each address shown was that of a stored instance that was not disabled. -/
def Promised (cfg : Settings) (took : (World → World → Prop) → Prop) (now : Inventory)
    (peer : Option Ip) (r : Request) (response : Response) : Operation → Prop
  | .deregister =>
    ∃ request, readBody DeregisterRequest.decode r = .ok request ∧ request.instanceId ∉ now.ids
  | .processShutdown =>
    ∃ request host, readBody ProcessShutdownRequest.decode r = .ok request ∧
      publishedHost (request.host.getD "") (peer.map Ip.canonical) cfg.localIp = .ok host ∧
      took fun met left => left.inventory.anyListens host request.ports = false ∧
        ∀ i ∈ now.instances, Inventory.listensAt host request.ports i = true →
          met.inventory.lastId < i.id
  | .list =>
    ∃ request answer, readBody ListRequest.decode r = .ok request ∧
      response = .json 200 (ListResponse.toJson answer) ∧
      took fun met _ =>
        answer = .ofEntries (met.inventory.listing (ListRequest.filter request)) ∧
        ∀ l ∈ answer.services, ∀ a ∈ l.addresses, met.inventory.Offers a
  | .target =>
    ∃ request answer, readBody TargetRequest.decode r = .ok request ∧
      response = .json 200 (ListResponse.toJson answer) ∧
      took fun met _ =>
        answer = .ofTargets (met.inventory.targets
          (.ofTexts request.capability request.path request.name)) ∧
        ∀ l ∈ answer.services, ∀ a ∈ l.addresses, met.inventory.Offers a
  | .lookup =>
    ∃ request answer, readBody LookupRequest.decode r = .ok request ∧
      response = .json 200 (Listing.toJson answer) ∧
      took fun met _ =>
        lookupAnswer request.service.name (met.inventory.lookup request.service) = .ok answer ∧
        ∀ a ∈ answer.addresses, met.inventory.Offers a
  | .register | .shutdown => True

section

variable {cfg : Settings} {peer : Option Ip} {r : Request} {crew : Crew Conclusion} {k : Nat}
variable {ticks : List Tick} {response : Response} {fits : Nat → Event → Prop}
variable (hk : crew.tasks[k]? = some ((Episode.request peer r).concludes cfg))
variable (hdone : (crew.after ticks).value? k = some (.responded response))
variable (hstatus : response.status = 200)

include hk hdone hstatus

theorem promised_deregister (hready : crew.Ready cfg.policy fits ticks)
    (hpath : r.path = Operation.deregister.path) :
    Promised cfg (crew.Takes k ticks) (crew.after ticks).world.inventory peer r response
      .deregister := by
  obtain ⟨request, hread, htakes⟩ :=
    exists_takes_of_answered .deregister hpath rfl hk hdone hstatus
  obtain ⟨-, g, -, ⟨evicted, hg⟩, hsteps⟩ := htakes (notes_deregister request)
  obtain ⟨-, -, -, -, hspent⟩ := hready.takes_after (P := fun _ inv => inv.Spent request.instanceId)
    (hsteps _ hg)
    (fun w w' hw hdoes => by
      obtain ⟨now, hwithdraw⟩ := hdoes.of_tries
      exact Inventory.spent_of_withdraw hw hwithdraw)
    fun _ _ m _ hm hspent => hspent.after hm
  exact ⟨request, hread, hspent.gone⟩

theorem promised_processShutdown (hready : crew.Ready cfg.policy fits ticks)
    (hpath : r.path = Operation.processShutdown.path) :
    Promised cfg (crew.Takes k ticks) (crew.after ticks).world.inventory peer r response
      .processShutdown := by
  obtain ⟨request, hread, htakes⟩ :=
    exists_takes_of_answered .processShutdown hpath rfl hk hdone hstatus
  cases hhost : publishedHost (request.host.getD "") (peer.map Ip.canonical) cfg.localIp with
  | error e =>
    -- A host that cannot be determined is an error.
    have herror : processShutdown cfg (peer.map Ip.canonical) request = pure (.error e) := by
      rw [processShutdown, hhost]
    have hnever : Follows (Notes fun (_ : Unit) _ _ => False)
        (fun result g => ∀ b, result = .ok b → False) none
        (processShutdown cfg (peer.map Ip.canonical) request) := by
      rw [herror]
      exact follows_pure nofun
    obtain ⟨-, -, -, hfalse, -⟩ := htakes hnever
    exact hfalse.elim
  | ok host =>
    obtain ⟨-, g, -, ⟨evicted, hg⟩, hsteps⟩ := htakes (notes_processShutdown hhost)
    have hports : ∀ w w' : World, Performs (fun now inv =>
        inv.withdrawPorts cfg.policy host request.ports now) evicted w w' →
        w'.inventory.anyListens host request.ports = false ∧
          Inventory.ListensSince host request.ports w.inventory.lastId w'.inventory := by
      rintro w w' ⟨now, hports⟩
      have hleft : (w.inventory.withdrawPorts cfg.policy host request.ports now).2
          = w'.inventory := congrArg Prod.snd hports
      rw [← hleft]
      exact ⟨Inventory.anyListens_withdrawPorts .., Inventory.listensSince_withdrawPorts ..⟩
    have hafter := hready.takes_after
      (P := fun met inv => Inventory.ListensSince host request.ports met.lastId inv)
      (hsteps _ hg) (fun w w' _ hdoes => (hports w w' hdoes).2)
      fun _ _ m _ hm hsince => hsince.after hm
    refine ⟨request, host, hread, hhost, hafter.mono fun w w' h => ?_⟩
    exact ⟨(hports w w' h.1).1, h.2.since⟩

theorem promised_list (hpath : r.path = Operation.list.path) :
    Promised cfg (crew.Takes k ticks) (crew.after ticks).world.inventory peer r response
      .list := by
  obtain ⟨request, hread, htakes⟩ :=
    exists_takes_of_answered .list hpath rfl hk hdone hstatus
  obtain ⟨answer, g, hresponse, ⟨seen, hg, hanswer⟩, hsteps⟩ :=
    htakes (notes_query (·.listing (ListRequest.filter request))
      fun entries => .ok (ListResponse.ofEntries entries))
  refine ⟨request, answer, hread, hresponse, (hsteps seen hg).mono ?_⟩
  rintro w w' ⟨now, hseen⟩
  obtain ⟨rfl, -⟩ := Prod.mk.inj hseen
  obtain rfl := Except.ok.inj hanswer
  refine ⟨rfl, fun l hl a ha => ?_⟩
  -- A listing is that of an entry as readers see it.
  obtain ⟨e, he, rfl⟩ := List.mem_map.1 hl
  obtain ⟨d, hd, rfl⟩ := List.mem_map.1 (List.mem_filter.1 he).1
  exact Inventory.offers_of_mem_visible (List.mem_filter.1 hd).1 ha

theorem promised_target (hpath : r.path = Operation.target.path) :
    Promised cfg (crew.Takes k ticks) (crew.after ticks).world.inventory peer r response
      .target := by
  obtain ⟨request, hread, htakes⟩ :=
    exists_takes_of_answered .target hpath rfl hk hdone hstatus
  obtain ⟨answer, g, hresponse, ⟨seen, hg, hanswer⟩, hsteps⟩ :=
    htakes (notes_query
      (·.targets (.ofTexts request.capability request.path request.name))
      fun targets => .ok (ListResponse.ofTargets targets))
  refine ⟨request, answer, hread, hresponse, (hsteps seen hg).mono ?_⟩
  rintro w w' ⟨now, hseen⟩
  obtain ⟨rfl, -⟩ := Prod.mk.inj hseen
  obtain rfl := Except.ok.inj hanswer
  refine ⟨rfl, fun l hl a ha => ?_⟩
  obtain ⟨⟨s, i⟩, hi, rfl⟩ := List.mem_map.1 hl
  obtain ⟨hstored, -, hvisible, -⟩ := mem_targets.1 hi
  rw [Instance.isVisible, Bool.not_eq_true'] at hvisible
  exact ⟨s, i, hstored, hvisible, List.mem_singleton.1 ha⟩

theorem promised_lookup (hpath : r.path = Operation.lookup.path) :
    Promised cfg (crew.Takes k ticks) (crew.after ticks).world.inventory peer r response
      .lookup := by
  obtain ⟨request, hread, htakes⟩ :=
    exists_takes_of_answered .lookup hpath rfl hk hdone hstatus
  obtain ⟨answer, g, hresponse, ⟨seen, hg, hanswer⟩, hsteps⟩ :=
    htakes (notes_query _ fun entries => lookupAnswer request.service.name entries)
  refine ⟨request, answer, hread, hresponse, (hsteps seen hg).mono ?_⟩
  rintro w w' ⟨now, hseen⟩
  obtain ⟨rfl, -⟩ := Prod.mk.inj hseen
  refine ⟨hanswer, fun a ha => ?_⟩
  rw [addresses_of_lookupAnswer hanswer] at ha
  obtain ⟨e, he, ha⟩ := List.mem_flatMap.1 ha
  obtain ⟨d, hd, rfl⟩ := List.mem_map.1 he
  exact Inventory.offers_of_mem_visible (List.mem_filter.1 hd).1 ha

end

/-! ## Whole schedules -/

/-- Requests and passes begin in a registry that is empty. -/
theorem ready_episodes {cfg : Settings} {episodes : List Episode} {w : World}
    (hw : w.inventory = .empty) {ticks : List Tick}
    (hroom : (atWork cfg episodes w).creations ticks < UInt64.size) :
    (atWork cfg episodes w).Ready cfg.policy (fun _ => LeavesNoneHidden) ticks := by
  refine Crew.ready_of_empty hw (fun k x hx => ?_) hroom
  rw [atWork, List.getElem?_map, Option.map_eq_some_iff] at hx
  obtain ⟨episode, -, rfl⟩ := hx
  exact steps_concludes cfg episode

/-- Where nothing is hidden, what a registration answers with is not. -/
theorem enabled_of_enrol {inv : Inventory} (hn : inv.ids.Nodup) (hvisible : inv.AllVisible)
    {service : Service} {endpoint : Endpoint} {capabilities : List Capability} {now : UInt64}
    {enrolment : Enrolment} {later : Inventory}
    (h : inv.enrol service endpoint capabilities now = .ok (enrolment, later)) :
    enrolment.current.disabled = false := by
  let m : Moment := ⟨⟨now, .enrol service endpoint capabilities⟩, inv⟩
  have hanswer : m.answer {} = .enrolled (.ok enrolment) := by
    simp only [m, Moment.answer, Event.perform, h, Inventory.attempt]
  rcases Moment.enrol_cases {} (m := m) rfl with ⟨-, hrefused, -⟩ | ⟨r, fs, -, hfiled, hr, hafter⟩
  · rw [hanswer] at hrefused
    cases hrefused
  · rw [hanswer] at hr
    cases hr
    obtain ⟨s, hcurrent⟩ := hfiled.current_mem
      (if enrolment.created then inv.lastId + 1 else inv.lastId)
    have hretire : ∀ id, m.action ≠ .retire id := by
      intro id hother
      cases hother
    have hshown : (m.after {}).AllVisible :=
      Inventory.AllVisible.after (m := m) hvisible hn hretire
    rw [hafter] at hshown
    have hcurrentShown := hshown _ (Inventory.mem_instances.2 ⟨s, hcurrent⟩)
    rwa [Instance.isVisible, Bool.not_eq_true'] at hcurrentShown

/-- In a registry that was empty at first, at any moment of any schedule of requests and
    passes, no stored instance is disabled, and none is that a registration would answer with.
    Whatever was answered with 200 keeps its promise. -/
theorem no_instance_disabled (cfg : Settings) (episodes : List Episode) (w : World)
    (hw : w.inventory = .empty) (ticks : List Tick) :
    let crew := atWork cfg episodes w
    let now := (crew.after ticks).world.inventory
    crew.creations ticks < UInt64.size →
    (∀ s i, (s, i) ∈ now.stored → i.disabled = false) ∧
    (∀ service endpoint capabilities clock enrolment later,
      now.enrol service endpoint capabilities clock = .ok (enrolment, later) →
        enrolment.current.disabled = false) ∧
    ∀ k peer r op response, episodes[k]? = some (.request peer r) → r.path = Operation.path op →
      (crew.after ticks).value? k = some (.responded response) → response.status = 200 →
      Promised cfg (crew.Takes k ticks) now peer r response op := by
  intro crew now hroom
  have hready : crew.Ready cfg.policy (fun _ => LeavesNoneHidden) ticks := ready_episodes hw hroom
  have hvisible : now.AllVisible := by
    refine hready.after_induction (P := (·.AllVisible)) ?_ fun _ m hfits hm hmet => ?_
    · show w.inventory.AllVisible
      rw [hw]
      exact List.forall_mem_nil _
    · exact hmet.after hm.wellFormed.ids_nodup hfits
  refine ⟨?_, ?_, ?_⟩
  · intro s i hi
    have hshown := hvisible i (Inventory.mem_instances.2 ⟨s, hi⟩)
    rwa [Instance.isVisible, Bool.not_eq_true'] at hshown
  · intro service endpoint capabilities clock enrolment later h
    exact enabled_of_enrol hready.wellFormed_after.ids_nodup hvisible h
  · intro k peer r op response hepisode hpath hdone hstatus
    have hk : crew.tasks[k]? = some ((Episode.request peer r).concludes cfg) := by
      show (episodes.map (·.concludes cfg))[k]? = _
      rw [List.getElem?_map, hepisode, Option.map_some]
    cases op with
    | register => trivial
    | deregister => exact promised_deregister hk hdone hstatus hready hpath
    | list => exact promised_list hk hdone hstatus hpath
    | target => exact promised_target hk hdone hstatus hpath
    | lookup => exact promised_lookup hk hdone hstatus hpath
    | shutdown => trivial
    | processShutdown => exact promised_processShutdown hk hdone hstatus hready hpath

/-- While a pass probes a service it is withdrawn by its number and registered again; then its
    port goes away. A list is asked for between the two. -/
theorem no_instance_disabled_between :
    let registry : Client.Handle := { origin := "http://registry" }
    let register := (registry.call .register (RegisterRequest.toJson
      ⟨⟨"kv", none⟩, [⟨"10.0.0.5", 9000, [.status]⟩]⟩)).request
    let deregister := (registry.call .deregister (DeregisterRequest.toJson ⟨1⟩)).request
    let list := (registry.call .list (ListRequest.toJson {})).request
    let leave := (registry.call .processShutdown
      (ProcessShutdownRequest.toJson ⟨some "10.0.0.5", [9000, 9001]⟩)).request
    let episodes : List Episode := [.request none register, .pass, .request none deregister,
      .request none register, .request none list, .request none leave]
    let w : World := { clock := 1000, unixTime := 0, fleet := { onProbe := fun _ => .fails } }
    let ticks : List Tick := List.replicate 6 (.proceed 0) ++ [.proceed 1]
      ++ List.replicate 6 (.proceed 2) ++ [.proceed 1, .proceed 1, .proceed 1, .proceed 3]
      ++ List.replicate 5 (.proceed 3) ++ [.proceed 4] ++ List.replicate 7 (.proceed 1)
      ++ List.replicate 6 (.proceed 5)
    (atWork {} episodes w).creations ticks = 2 ∧
    ((atWork {} episodes w).after ticks).value? 2
      = some (.responded (.json 200 (Ack.toJson ⟨⟩))) ∧
    ((atWork {} episodes w).after ticks).value? 4
      = some (.responded (.json 200 (ListResponse.toJson
        ⟨[⟨⟨"kv", none⟩, [⟨"10.0.0.5", 9000, [.status]⟩]⟩]⟩))) ∧
    ((atWork {} episodes w).after ticks).value? 5
      = some (.responded (.json 200 (Ack.toJson ⟨⟩))) ∧
    Promised {} ((atWork {} episodes w).Takes 2 ticks)
      ((atWork {} episodes w).after ticks).world.inventory none deregister
      (.json 200 (Ack.toJson ⟨⟩)) .deregister ∧
    Promised {} ((atWork {} episodes w).Takes 5 ticks)
      ((atWork {} episodes w).after ticks).world.inventory none leave
      (.json 200 (Ack.toJson ⟨⟩)) .processShutdown := by
  intro registry register deregister list leave episodes w ticks
  have hmade : (atWork {} episodes w).creations ticks = 2 := by decide +kernel
  have hroom : (atWork {} episodes w).creations ticks < UInt64.size := by
    rw [hmade]
    decide
  have hgone : ((atWork {} episodes w).after ticks).value? 2
      = some (.responded (.json 200 (Ack.toJson ⟨⟩))) := by
    decide +kernel
  have hlisted : ((atWork {} episodes w).after ticks).value? 4
      = some (.responded (.json 200 (ListResponse.toJson
        ⟨[⟨⟨"kv", none⟩, [⟨"10.0.0.5", 9000, [.status]⟩]⟩]⟩))) := by
    decide +kernel
  have hleft : ((atWork {} episodes w).after ticks).value? 5
      = some (.responded (.json 200 (Ack.toJson ⟨⟩))) := by
    decide +kernel
  obtain ⟨-, -, hkept⟩ := no_instance_disabled {} episodes w rfl ticks hroom
  have hderegister : deregister.path = Operation.deregister.path := by decide
  have hleave : leave.path = Operation.processShutdown.path := by decide
  exact ⟨hmade, hgone, hlisted, hleft,
    hkept 2 none deregister .deregister _ rfl hderegister hgone rfl,
    hkept 5 none leave .processShutdown _ rfl hleave hleft rfl⟩

end Server

end ServiceRegistry
