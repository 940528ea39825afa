/-
  ServiceRegistry.Proofs.Server.Lookup

  What a lookup is answered with. Where nothing stored is hidden, the addresses are those of all
  that is stored under services that accept the one asked for, and there is no answer exactly if
  there are none. The service in an answer is that of the first entry that accepts the one asked
  for. If its instances have gone it has none of the addresses, though entries after it have; with
  a deploy path no more than one entry accepts the service, so the answer names that one.
-/
import ServiceRegistry.Proofs.Client.Remote
import ServiceRegistry.Proofs.Server.Views

namespace ServiceRegistry

open Message Net World

/-! ## What is stored of a service -/

namespace Inventory

variable {inv : Inventory} {asked : Service}

theorem shown_eq_stored (h : inv.AllVisible) : inv.shown = inv.stored := by
  refine List.filter_eq_self.2 ?_
  rintro ⟨s, i⟩ hi
  exact h i (mem_instances.2 ⟨s, hi⟩)

/-- The hosts, ports and capabilities of all that is stored under services that accept one. -/
def addressesOf (inv : Inventory) (asked : Service) : List Address :=
  (inv.stored.filter (·.1.accepts asked)).map fun t =>
    ⟨t.2.endpoint.host, t.2.endpoint.port, t.2.capabilities⟩

theorem mem_addressesOf {e : Entry} {i : Instance} (he : e ∈ inv.entries)
    (haccepts : e.service.accepts asked = true) (hi : i ∈ e.instances) :
    ⟨i.endpoint.host, i.endpoint.port, i.capabilities⟩ ∈ inv.addressesOf asked :=
  List.mem_map.2 ⟨(e.service, i),
    List.mem_filter.2 ⟨mem_stored.2 ⟨e, he, rfl, hi⟩, haccepts⟩, rfl⟩

theorem exists_mem_addressesOf_iff {e : Entry} (he : e ∈ inv.entries)
    (haccepts : e.service.accepts asked = true) :
    (∃ i ∈ e.instances,
        ⟨i.endpoint.host, i.endpoint.port, i.capabilities⟩ ∈ inv.addressesOf asked) ↔
      e.instances ≠ [] := by
  constructor
  · rintro ⟨i, hi, -⟩
    exact List.ne_nil_of_mem hi
  · intro hsome
    obtain ⟨i, hi⟩ := List.exists_mem_of_ne_nil _ hsome
    exact ⟨i, hi, mem_addressesOf he haccepts hi⟩

theorem addressesOf_eq_nil_iff :
    inv.addressesOf asked = [] ↔
      ∀ e ∈ inv.entries, e.service.accepts asked = true → e.instances = [] := by
  constructor
  · intro hnil e he haccepts
    refine List.eq_nil_iff_forall_not_mem.2 fun i hi => ?_
    have hmem := mem_addressesOf he haccepts hi
    rw [hnil] at hmem
    cases hmem
  · intro hdormant
    refine List.map_eq_nil_iff.2 (List.filter_eq_nil_iff.2 ?_)
    rintro ⟨s, i⟩ hstored haccepts
    obtain ⟨e, he, rfl, hi⟩ := mem_stored.1 hstored
    rw [hdormant e he haccepts] at hi
    cases hi

theorem addresses_lookup (h : inv.AllVisible) (asked : Service) :
    ((inv.lookup asked).flatMap fun e => (Listing.ofEntry e).addresses) = inv.addressesOf asked := by
  rw [addresses_ofEntries, lookup_shown, shown_eq_stored h]
  rfl

/-- At most one entry accepts a service with a deploy path. -/
theorem WellFormed.eq_of_accepts_path (h : inv.WellFormed) {path : String}
    (hpath : asked.path? = some path) {d e : Entry} (hd : d ∈ inv.entries) (he : e ∈ inv.entries)
    (hdaccepts : d.service.accepts asked = true) (heaccepts : e.service.accepts asked = true) :
    d = e := by
  have hlength : (inv.entries.filter (·.service.accepts asked)).length ≤ 1 := by
    have hservices := Service.Apart.length_filter_le_one h.services_apart hpath
    rwa [services, List.filter_map, List.length_map] at hservices
  have hd' : d ∈ inv.entries.filter (·.service.accepts asked) :=
    List.mem_filter.2 ⟨hd, hdaccepts⟩
  have he' : e ∈ inv.entries.filter (·.service.accepts asked) :=
    List.mem_filter.2 ⟨he, heaccepts⟩
  obtain ⟨only, honly⟩ := List.length_eq_one_iff.1
    (Nat.le_antisymm hlength (List.length_pos_of_mem hd'))
  rw [honly, List.mem_singleton] at hd' he'
  exact hd'.trans he'.symm

/-- The entry that accepts a service with a deploy path has all that is stored of it. -/
theorem WellFormed.instances_ne_nil (h : inv.WellFormed) {path : String}
    (hpath : asked.path? = some path) {e : Entry} (he : e ∈ inv.entries)
    (haccepts : e.service.accepts asked = true) (hsome : inv.addressesOf asked ≠ []) :
    e.instances ≠ [] := by
  intro hdormant
  -- There is no other entry that could have the addresses.
  refine hsome (addressesOf_eq_nil_iff.2 fun d hd hdaccepts => ?_)
  rwa [h.eq_of_accepts_path hpath hd he hdaccepts haccepts]

end Inventory

/-! ## Answers -/

namespace Server

section

variable {inv : Inventory} {asked : Service}

theorem lookupAnswer_of_dormant (hvisible : inv.AllVisible)
    (h : ∀ e ∈ inv.entries, e.service.accepts asked = true → e.instances = []) :
    lookupAnswer asked.name (inv.lookup asked) = .error (.serviceNotFound asked.name) := by
  apply lookupAnswer_of_nil
  rw [Inventory.addresses_lookup hvisible asked, Inventory.addressesOf_eq_nil_iff.2 h]

theorem lookupAnswer_of_ne_nil (hvisible : inv.AllVisible) (h : inv.addressesOf asked ≠ []) :
    ∃ e, inv.entries.find? (·.service.accepts asked) = some e ∧
      lookupAnswer asked.name (inv.lookup asked) = .ok ⟨e.service, inv.addressesOf asked⟩ := by
  have haddresses := Inventory.addresses_lookup hvisible asked
  obtain ⟨a, as, hsome⟩ := List.exists_cons_of_ne_nil h
  rw [← List.head?_filter]
  unfold lookupAnswer
  rw [haddresses]
  cases hfilter : inv.entries.filter (·.service.accepts asked) with
  | nil =>
    -- Without such an entry there would be no address.
    rw [Inventory.lookup, hfilter] at haddresses
    exact absurd haddresses.symm h
  | cons e es =>
    refine ⟨e, rfl, ?_⟩
    rw [Inventory.lookup, hfilter, hsome]
    rfl

end

/-- A request for an operation that is let in and can be read is answered as the handler has it. -/
theorem Handles.run_respond {α β : Type} {cfg : Settings} {peer : Option Ip} {r : Request}
    {op : Operation} {decode : Json.Decoder α} {encode : β → Json} {a : α}
    {handler : Settings → α → Work (Except RegistryError β)}
    (h : Handles (peer.map Ip.canonical) op decode encode handler)
    (hmethod : r.method = "POST") (hpath : r.path = op.path) (hread : readBody decode r = .ok a)
    {w : World} (hadmitted : ∀ secret, cfg.secret = some secret →
      refusal? secret op.permission w.unixTime r.authorization = none) :
    (respond cfg peer r).run w =
      (respondWith encode ((handler cfg a).run w).1, ((handler cfg a).run w).2) := by
  cases hsecret : cfg.secret with
  | none =>
    rw [h.respond_open hsecret hmethod hpath hread, Activity.run_bind]
    rfl
  | some secret =>
    rw [run_respond_operation hsecret hmethod hpath, hadmitted secret hsecret]
    dsimp only
    rw [h.respond_open rfl hmethod hpath hread, h.openly, Activity.run_bind]
    rfl

/-- In a registry that was empty at first, after any schedule of requests and passes. A lookup that
    is let in and can be read is answered with 404 exactly if no entry that accepts the service has
    an instance, and otherwise with the addresses of all that is stored in entries that accept it,
    in order. The service in the answer is that of the first such entry, which has one of the
    addresses exactly if it has an instance; it does where a deploy path is asked for. -/
theorem respond_lookup (cfg : Settings) (w₀ : World) (hw₀ : w₀.inventory = .empty)
    (moves : List (Move Episode))
    (hroom : creations (Episode.work cfg) { world := w₀ } moves < UInt64.size)
    (peer : Option Ip) (r : Request) (request : LookupRequest) (hmethod : r.method = "POST")
    (hpath : r.path = Operation.lookup.path)
    (hread : readBody LookupRequest.decode r = .ok request) :
    let w := (Running.after (Episode.work cfg) { world := w₀ } moves).world
    let entries := w.inventory.entries
    let asked := request.service
    let answered := (respond cfg peer r).run w
    (∀ secret, cfg.secret = some secret →
      refusal? secret Operation.lookup.permission w.unixTime r.authorization = none) →
    (answered.1.status = 404 ↔
      ∀ e ∈ entries, e.service.accepts asked = true → e.instances = []) ∧
    (answered.1.status = 404 → answered =
      (.json 404 (ErrorBody.toJson ⟨(RegistryError.serviceNotFound asked.name).message⟩), w)) ∧
    (answered.1.status ≠ 404 → ∃ e answer,
      entries.find? (·.service.accepts asked) = some e ∧
      answered = (.json 200 (Listing.toJson answer), w) ∧
      answer.service = e.service ∧
      answer.addresses = (w.inventory.stored.filter (·.1.accepts asked)).map
        (fun t => ⟨t.2.endpoint.host, t.2.endpoint.port, t.2.capabilities⟩) ∧
      ((∃ i ∈ e.instances,
          ⟨i.endpoint.host, i.endpoint.port, i.capabilities⟩ ∈ answer.addresses) ↔
        e.instances ≠ []) ∧
      (asked.path? ≠ none → e.instances ≠ [])) := by
  intro w entries asked answered hadmitted
  -- Nothing is hidden between steps, so what is shown is what is stored.
  obtain ⟨hwell, hvisible, -⟩ := attained_episodes hw₀ hroom
  have hanswered : answered =
      (respondWith Listing.toJson (lookupAnswer asked.name (w.inventory.lookup asked)), w) :=
    (handles_lookup _).run_respond hmethod hpath hread hadmitted
  by_cases hnil : w.inventory.addressesOf asked = []
  case pos =>
    have hdormant := Inventory.addressesOf_eq_nil_iff.1 hnil
    rw [lookupAnswer_of_dormant hvisible hdormant] at hanswered
    rw [hanswered]
    exact ⟨⟨fun _ => hdormant, fun _ => rfl⟩, fun _ => rfl, fun hstatus => absurd rfl hstatus⟩
  case neg =>
    obtain ⟨e, hfirst, hanswer⟩ := lookupAnswer_of_ne_nil hvisible hnil
    obtain ⟨haccepts, -⟩ := List.find?_eq_some_iff_append.1 hfirst
    have he : e ∈ entries := List.mem_of_find?_eq_some hfirst
    rw [hanswer] at hanswered
    rw [hanswered]
    have hfound : (200 : Nat) ≠ 404 := by decide
    refine ⟨⟨fun h => absurd h hfound, fun h => ?_⟩, fun h => absurd h hfound, fun _ =>
      ⟨e, ⟨e.service, _⟩, hfirst, rfl, rfl, rfl, ?_, fun hgiven => ?_⟩⟩
    · exact absurd (Inventory.addressesOf_eq_nil_iff.2 h) hnil
    · exact Inventory.exists_mem_addressesOf_iff he haccepts
    · obtain ⟨path, hgiven⟩ := Option.ne_none_iff_exists'.1 hgiven
      exact hwell.instances_ne_nil hgiven he haccepts hnil

/-- Of two builds the later one has gone; the service in the answer is that of the other. -/
theorem respond_lookup_build_gone :
    let registry : Client.Handle := { origin := "http://registry" }
    let register (build host : String) := (registry.call .register (RegisterRequest.toJson
      ⟨⟨"kv", some ("ns/g/kv/" ++ build)⟩, [⟨host, 9000, [.tcp]⟩]⟩)).request
    let deregister := (registry.call .deregister (DeregisterRequest.toJson ⟨2⟩)).request
    let r := (registry.call .lookup (LookupRequest.toJson ⟨.named "kv"⟩)).request
    let moves : List (Move Episode) :=
      .start (.request none (register "1" "node-1")) :: List.replicate 6 (.proceed 0)
        ++ .start (.request none (register "2" "node-2")) :: List.replicate 6 (.proceed 1)
        ++ .start (.request none deregister) :: List.replicate 6 (.proceed 2)
    let w₀ : World := { clock := 1000, unixTime := 0 }
    let w := (Running.after (Episode.work {}) { world := w₀ } moves).world
    creations (Episode.work {}) { world := w₀ } moves = 2 ∧
    w.inventory.entries.map (fun e => (e.service.path?, e.instances.length))
      = [(some "ns/g/kv/1", 1), (some "ns/g/kv/2", 0)] ∧
    ((respond {} none r).run w).1 = .json 200 (Listing.toJson
      ⟨⟨"kv", some "ns/g/kv/1"⟩, [⟨"node-1", 9000, [.tcp]⟩]⟩) ∧
    ∃ e answer, w.inventory.entries.find? (·.service.accepts (.named "kv")) = some e ∧
      (respond {} none r).run w = (.json 200 (Listing.toJson answer), w) ∧
      answer.service = e.service ∧ ∃ i ∈ e.instances,
        ⟨i.endpoint.host, i.endpoint.port, i.capabilities⟩ ∈ answer.addresses := by
  intro registry register deregister r moves w₀ w
  have hmade : creations (Episode.work {}) { world := w₀ } moves = 2 := by decide +kernel
  have hroom : creations (Episode.work {}) { world := w₀ } moves < UInt64.size := by
    rw [hmade]
    decide
  have hentries : w.inventory.entries.map (fun e => (e.service.path?, e.instances.length))
      = [(some "ns/g/kv/1", 1), (some "ns/g/kv/2", 0)] := by decide +kernel
  have hresponse : ((respond {} none r).run w).1 = .json 200 (Listing.toJson
      ⟨⟨"kv", some "ns/g/kv/1"⟩, [⟨"node-1", 9000, [.tcp]⟩]⟩) := by decide +kernel
  have hread : readBody LookupRequest.decode r = .ok ⟨.named "kv"⟩ := by decide +kernel
  -- The first entry is the one with an instance.
  have hlength : (w.inventory.entries.find? (·.service.accepts (.named "kv"))).map
      (·.instances.length) = some 1 := by decide +kernel
  obtain ⟨-, -, hfound⟩ :=
    respond_lookup {} w₀ rfl moves hroom none r _ rfl (by decide) hread nofun
  have hworld : (Running.after (Episode.work {}) { world := w₀ } moves).world = w := rfl
  rw [hworld] at hfound
  clear_value w
  obtain ⟨e, answer, hfirst, hanswered, hservice, -, howner, -⟩ :=
    hfound (by rw [hresponse]; decide)
  rw [hfirst, Option.map_some, Option.some.injEq] at hlength
  have hsome : e.instances ≠ [] := List.ne_nil_of_length_eq_add_one hlength
  exact ⟨hmade, hentries, hresponse, e, answer, hfirst, hanswered, hservice, howner.2 hsome⟩

/-- Of two builds the earlier one has gone; the answer names it, and gives the address of the
    other. -/
theorem lookup_names_dormant :
    let registry : Client.Handle := { origin := "http://registry" }
    let register (build host : String) := (registry.call .register (RegisterRequest.toJson
      ⟨⟨"kv", some ("ns/g/kv/" ++ build)⟩, [⟨host, 9000, [.tcp]⟩]⟩)).request
    let deregister := (registry.call .deregister (DeregisterRequest.toJson ⟨1⟩)).request
    let r := (registry.call .lookup (LookupRequest.toJson ⟨.named "kv"⟩)).request
    let moves : List (Move Episode) :=
      .start (.request none (register "1" "node-1")) :: List.replicate 6 (.proceed 0)
        ++ .start (.request none deregister) :: List.replicate 6 (.proceed 1)
        ++ .start (.request none (register "2" "node-2")) :: List.replicate 6 (.proceed 2)
    let w₀ : World := { clock := 1000, unixTime := 0 }
    let w := (Running.after (Episode.work {}) { world := w₀ } moves).world
    w.inventory.entries.map (fun e => (e.service.path?, e.instances.map (·.endpoint)))
      = [(some "ns/g/kv/1", []), (some "ns/g/kv/2", [⟨"node-2", 9000⟩])] ∧
    ((respond {} none r).run w).1 = .json 200 (Listing.toJson
      ⟨⟨"kv", some "ns/g/kv/1"⟩, [⟨"node-2", 9000, [.tcp]⟩]⟩) := by
  decide +kernel

end Server

end ServiceRegistry
