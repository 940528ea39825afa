/-
  ServiceRegistry.Proofs.Server.Views

  Answers to queries and what background work reads, compared. All of them are the sequence
  `Inventory.shown`, restricted to what was asked for and written in their own way: a list has
  a listing for each entry, the targets have one for each address, a lookup has one for all,
  and the scraper is given one group for each name.
-/
import ServiceRegistry.Proofs.Inventory.Shown
import ServiceRegistry.Proofs.Server.Promises

namespace ServiceRegistry

namespace Message

/-! ## Lines of answers -/

/-- The addresses of a list, each with its service. -/
def ListResponse.lines (r : ListResponse) : List (Service × Address) :=
  r.services.flatMap fun l => l.addresses.map fun a => (l.service, a)

/-- A listing for each line. -/
def ListResponse.ofLines (ls : List (Service × Address)) : ListResponse :=
  ⟨ls.map fun l => ⟨l.1, [l.2]⟩⟩

/-- An instance as answers show it: the service of its entry, its host, its port and its
    capabilities. -/
def line (t : Service × Instance) : Service × Address :=
  (t.1, ⟨t.2.endpoint.host, t.2.endpoint.port, t.2.capabilities⟩)

theorem lines_ofEntries (es : List Entry) :
    (ListResponse.ofEntries es).lines
      = (es.flatMap fun e => e.instances.map fun i => (e.service, i)).map line := by
  simp only [ListResponse.lines, ListResponse.ofEntries, Listing.ofEntry, Address.ofInstance,
    List.flatMap_map, List.map_flatMap, List.map_map, Function.comp_def, line]

theorem addresses_ofEntries (es : List Entry) :
    (es.flatMap fun e => (Listing.ofEntry e).addresses)
      = (es.flatMap fun e => e.instances.map fun i => (e.service, i)).map
          fun t => ⟨t.2.endpoint.host, t.2.endpoint.port, t.2.capabilities⟩ := by
  simp only [Listing.ofEntry, List.map_flatMap, List.map_map, Function.comp_def]
  rfl

theorem ofTargets_eq (ts : List (Service × Instance)) :
    ListResponse.ofTargets ts = .ofLines (ts.map line) := by
  simp only [ListResponse.ofTargets, ListResponse.ofLines, Address.ofInstance, List.map_map,
    Function.comp_def, line]

end Message

namespace Server

open Message World

/-! ## Queries -/

section

variable {w : World}

theorem run_list (name : String) :
    (list ⟨name⟩).run w = (.ok (.ofEntries (w.inventory.listing (ListRequest.filter ⟨name⟩))), w) :=
  rfl

/-- The empty name restricts nothing. -/
theorem filter_all (name : String) (s : Service) :
    (ListRequest.filter ⟨name⟩).all (s.name == ·) = (name = "" || s.name = name) := by
  unfold ListRequest.filter
  by_cases h : name = ""
  · simp [h]
  · simp [h, beq_eq_decide]

theorem lines_list (name : String) :
    (ListResponse.ofEntries (w.inventory.listing (ListRequest.filter ⟨name⟩))).lines
      = (w.inventory.shown.filter fun t => name = "" || t.1.name = name).map line := by
  simp only [lines_ofEntries, Inventory.listing_shown, filter_all]

theorem addresses_ne_nil_of_listing {name : Option String} {l : Listing}
    (h : l ∈ (ListResponse.ofEntries (w.inventory.listing name)).services) :
    l.addresses ≠ [] := by
  obtain ⟨e, he, rfl⟩ := List.mem_map.1 h
  have hshows : e.instances ≠ [] := by simpa using (List.mem_filter.1 he).2
  intro hnil
  exact hshows (List.map_eq_nil_iff.1 hnil)

theorem run_target (capability : Capability) :
    (target { capability }).run w
      = (.ok (.ofLines ((w.inventory.shown.filter (·.2.offers capability)).map line)), w) := by
  have htargets : w.inventory.targets (.ofTexts capability "" "")
      = w.inventory.shown.filter fun t => t.2.offers capability := by
    rw [Inventory.targets_shown]
    rfl
  rw [← htargets, ← ofTargets_eq]
  rfl

theorem run_lookup (service : Service) :
    (lookup ⟨service⟩).run w = (lookupAnswer service.name (w.inventory.lookup service), w) := rfl

/-- What a lookup finds, by names and deploy paths. -/
theorem shown_filter_accepts (service : Service) :
    w.inventory.shown.filter (·.1.accepts service) = w.inventory.shown.filter fun t =>
      t.1.name = service.name ∧ (t.1.deployPath.getD "" = "" ∨ service.deployPath.getD "" = "" ∨
        t.1.deployPath = service.deployPath) := by
  refine List.filter_congr fun t _ => ?_
  rw [Bool.eq_iff_iff, Service.accepts_iff, decide_eq_true_eq]

theorem lookupAnswer_of_nil {name : String} {es : List Entry}
    (h : (es.flatMap fun e => (Listing.ofEntry e).addresses) = []) :
    lookupAnswer name es = .error (.serviceNotFound name) := by
  unfold lookupAnswer
  rw [h]
  cases es <;> rfl

theorem exists_lookupAnswer (name : String) {es : List Entry}
    (h : (es.flatMap fun e => (Listing.ofEntry e).addresses) ≠ []) :
    ∃ answer, lookupAnswer name es = .ok answer := by
  unfold lookupAnswer
  obtain ⟨a, as, haddresses⟩ := List.exists_cons_of_ne_nil h
  cases es with
  | nil => exact absurd rfl h
  | cons e es =>
    rw [haddresses]
    exact ⟨_, rfl⟩

end

/-! ## Agreement -/

/-- How the views of a world agree.

      * A list, with a name or without, gives the service, the host, the port and the
        capabilities of each instance that is shown under that name, and no listing of it is
        empty.
      * The targets of a capability are the lines of the whole list that have it.
      * A lookup gives the hosts, ports and capabilities of the services that accept the one
        asked for, and fails exactly if there are none.
      * The candidates for probes are those of the shown instances that answer them.
      * The groups for the scraper are the candidates gathered by their names up to the first
        dot, each with its host and port, with distinct names and no empty group. -/
structure Agreement (w : World) : Prop where
  list : ∀ name, ∃ listed, (list ⟨name⟩).run w = (.ok listed, w) ∧
    listed.lines = (w.inventory.shown.filter fun t => name = "" || t.1.name = name).map
      (fun t => (t.1, ⟨t.2.endpoint.host, t.2.endpoint.port, t.2.capabilities⟩)) ∧
    ∀ l ∈ listed.services, l.addresses ≠ []
  target : ∀ capability, ∃ listed, (Server.list {}).run w = (.ok listed, w) ∧
    (target { capability }).run w = (.ok (.ofLines
      (listed.lines.filter fun l => l.2.capabilities.contains capability)), w)
  lookup : ∀ service,
    match w.inventory.shown.filter fun t => t.1.name = service.name ∧
        (t.1.deployPath.getD "" = "" ∨ service.deployPath.getD "" = "" ∨
          t.1.deployPath = service.deployPath) with
    | [] => (lookup ⟨service⟩).run w = (.error (.serviceNotFound service.name), w)
    | found => ∃ answer, (lookup ⟨service⟩).run w = (.ok answer, w) ∧
        answer.addresses =
          found.map fun t => ⟨t.2.endpoint.host, t.2.endpoint.port, t.2.capabilities⟩
  candidates : w.inventory.candidates
    = (w.inventory.shown.filter fun t => t.2.capabilities.contains .status).map
        fun t => ⟨t.2.id, t.1.name, t.2.endpoint⟩
  groups :
    let name (c : Candidate) : String := String.ofList (c.serviceName.toList.takeWhile (· ≠ '.'))
    w.inventory.scrapeGroups = (w.inventory.candidates.map name).eraseDups.map fun n =>
      ⟨n, (w.inventory.candidates.filter (name · = n)).map
        fun c => c.endpoint.host ++ ":" ++ toString c.endpoint.port.toNat⟩
  names_nodup : (w.inventory.scrapeGroups.map (·.name)).Nodup
  groups_nonempty : ∀ g ∈ w.inventory.scrapeGroups, g.addresses ≠ []

/-- All views show the same instances. -/
theorem views_agree (w : World) : Agreement w where
  list name := ⟨_, run_list name, lines_list name, fun _ => addresses_ne_nil_of_listing⟩
  target capability := by
    refine ⟨_, run_list "", ?_⟩
    have hlines : (ListResponse.ofEntries (w.inventory.listing (ListRequest.filter ⟨""⟩))).lines
        = w.inventory.shown.map line := by
      rw [lines_list, List.filter_eq_self.2]
      exact fun _ _ => rfl
    rw [run_target, hlines, List.filter_map]
    rfl
  lookup service := by
    have haddresses := addresses_ofEntries (w.inventory.lookup service)
    rw [Inventory.lookup_shown] at haddresses
    rw [← shown_filter_accepts, run_lookup]
    cases hfound : w.inventory.shown.filter fun t => t.1.accepts service with
    | nil =>
      rw [hfound, List.map_nil] at haddresses
      rw [lookupAnswer_of_nil haddresses]
    | cons t ts =>
      have hsome : (w.inventory.lookup service).flatMap (fun e => (Listing.ofEntry e).addresses)
          ≠ [] := by
        rw [haddresses, hfound]
        exact List.cons_ne_nil _ _
      obtain ⟨answer, hanswer⟩ := exists_lookupAnswer service.name hsome
      refine ⟨answer, by rw [hanswer], ?_⟩
      rw [addresses_of_lookupAnswer hanswer, haddresses, hfound]
  candidates := Inventory.candidates_shown w.inventory
  groups := Inventory.scrapeGroups_eq w.inventory
  names_nodup := by
    rw [Inventory.scrapeGroups_eq]
    exact ScrapeGroup.gathered_names_nodup _
  groups_nonempty := by
    rw [Inventory.scrapeGroups_eq]
    exact fun _ => ScrapeGroup.addresses_ne_nil_of_gathered

end Server

end ServiceRegistry
