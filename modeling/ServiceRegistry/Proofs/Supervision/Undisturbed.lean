/-
  ServiceRegistry.Proofs.Supervision.Undisturbed

  What one pass does when nobody else is at work. The candidates are read once and the outcomes
  are noted one after the other, each by looking for a number; since numbers are distinct, that is
  as if every instance that is probed were judged by the outcome of its own probe, all at once
  (`noteAll_eq`, `heard_eq`). What is swept then and what is reported depends on these judgements
  only.
-/
import ServiceRegistry.Proofs.Inventory.History
import ServiceRegistry.Proofs.Inventory.Probing
import ServiceRegistry.Proofs.Inventory.Sweeping
import ServiceRegistry.Supervision.Pass

namespace ServiceRegistry.Supervision

open Inventory (Event onlyAt)
open World

/-! ## Judgements -/

/-- The instance is probed by every pass. -/
def isWatched (i : Instance) : Bool := i.isProbeable && i.isVisible

/-- The candidate that an instance of a service is. -/
def candidateOf (s : Service) (i : Instance) : Candidate := ⟨i.id, s.name, i.endpoint⟩

/-- An instance after a probe. A success clears its failures; a failure, or giving up, is one more
    failure up to the limit of the count. -/
def judged (r : Reaction) (now : UInt64) (i : Instance) : Instance :=
  match r with
  | .succeeds => { i with failures := 0, lastSuccess := now }
  | .fails | .hangs =>
    { i with failures := .ofNat (min (UInt32.size - 1) (i.failures.toNat + 1)) }

/-- An instance of a service after a pass has probed it, if it is one that is probed. -/
def tested (onProbe : Candidate → Reaction) (now : UInt64) (s : Service) (i : Instance) :
    Instance :=
  if isWatched i then judged (onProbe (candidateOf s i)) now i else i

theorem failed_eq (i : Instance) :
    i.failed = { i with failures := .ofNat (min (UInt32.size - 1) (i.failures.toNat + 1)) } := by
  have hlimit : i.failures.toNat ≤ UInt32.size - 1 := Nat.le_pred_of_lt i.failures.toNat_lt_size
  have hfailures := Inventory.failed_failures (i := i) (n := i.failures.toNat)
    (by rw [Nat.min_eq_right hlimit, UInt32.ofNat_toNat])
  rw [← hfailures]
  rfl

theorem probed_eq_judged (r : Reaction) (now : UInt64) (i : Instance) :
    i.probed (r == .succeeds) now = judged r now i := by
  cases r with
  | succeeds => rfl
  | fails => exact failed_eq i
  | hangs => exact failed_eq i

/-! ## Noting all outcomes -/

/-- The inventory after the outcomes of some probes have been noted, one after the other. -/
def noteAll (now : UInt64) (probes : List (Candidate × Reaction)) (inv : Inventory) : Inventory :=
  probes.foldl (fun inv p => (inv.noteProbe p.1.id (p.2 == .succeeds) now).2) inv

/-- An instance after its own probe among some probes. -/
def heard (now : UInt64) (probes : List (Candidate × Reaction)) (i : Instance) : Instance :=
  match probes.find? (·.1.id == i.id) with
  | some p => judged p.2 now i
  | none => i

section

variable {inv : Inventory} {now : UInt64} {probes : List (Candidate × Reaction)}

/-- Where no number is probed twice, each instance hears of its own probe only. -/
theorem noteAll_eq (hn : inv.ids.Nodup) (hprobes : (probes.map (·.1.id)).Nodup) :
    noteAll now probes inv = inv.amend (heard now probes) := by
  induction probes generalizing inv with
  | nil => exact (Inventory.amend_self inv).symm
  | cons p probes ih =>
    obtain ⟨hfresh, hrest⟩ := List.nodup_cons.1 hprobes
    have hsame : ∀ i : Instance, (onlyAt p.1.id (·.probed (p.2 == .succeeds) now) i).id = i.id :=
      fun i => (Inventory.sameRegistration_onlyAt
        (fun j => Inventory.sameRegistration_probed j _ now) p.1.id i).id_eq
    have hnext : (inv.amend (onlyAt p.1.id (·.probed (p.2 == .succeeds) now))).ids.Nodup := by
      rwa [Inventory.amend_ids hsame]
    rw [noteAll, List.foldl_cons, Inventory.noteProbe_eq_amend hn]
    rw [← noteAll, ih hnext hrest, Inventory.amend_amend]
    refine Inventory.amend_congr fun i _ => ?_
    rw [heard, heard, hsame, List.find?_cons]
    by_cases hid : i.id = p.1.id
    · -- The rest of the probes has another number.
      have hnone : probes.find? (·.1.id == i.id) = none := by
        refine List.find?_eq_none.2 fun q hq heq => hfresh (List.mem_map.2 ⟨q, hq, ?_⟩)
        exact (beq_iff_eq.1 heq).trans hid
      rw [hnone, hid, beq_self_eq_true]
      exact (if_pos hid).trans (probed_eq_judged p.2 now i)
    · rw [onlyAt, if_neg hid, beq_false_of_ne (Ne.symm hid)]

end

/-- What an instance hears of when all candidates have been probed. -/
theorem heard_eq {inv : Inventory} (hn : inv.ids.Nodup) (onProbe : Candidate → Reaction)
    (now : UInt64) {s : Service} {i : Instance} (hi : (s, i) ∈ inv.stored) :
    heard now (inv.candidates.map fun c => (c, onProbe c)) i = tested onProbe now s i := by
  rw [heard, List.find?_map, tested]
  -- The candidate with the number of the instance, if there is one, is the instance.
  have hown : ∀ c ∈ inv.candidates, c.id = i.id → isWatched i = true ∧ c = candidateOf s i := by
    intro c hc hid
    obtain ⟨t, j, hj, hprobeable, hvisible, rfl⟩ := Inventory.mem_candidates.1 hc
    obtain ⟨rfl, rfl⟩ := Inventory.eq_of_id_eq hn hj hi hid
    exact ⟨Bool.and_eq_true_iff.2 ⟨hprobeable, hvisible⟩, rfl⟩
  cases hfind : inv.candidates.find? ((·.1.id == i.id) ∘ fun c => (c, onProbe c)) with
  | some c =>
    have hfound := List.find?_some (p := (·.1.id == i.id) ∘ fun c => (c, onProbe c)) hfind
    have hid : c.id = i.id := beq_iff_eq.1 hfound
    obtain ⟨hwatched, rfl⟩ := hown c (List.mem_of_find?_eq_some hfind) hid
    rw [if_pos hwatched]
    rfl
  | none =>
    have hunwatched : ¬ isWatched i = true := by
      intro hwatched
      obtain ⟨hprobeable, hvisible⟩ := Bool.and_eq_true_iff.1 hwatched
      have hc : candidateOf s i ∈ inv.candidates :=
        Inventory.mem_candidates.2 ⟨s, i, hi, hprobeable, hvisible, rfl⟩
      exact List.find?_eq_none.1 hfind _ hc (beq_self_eq_true i.id)
    rw [if_neg hunwatched]
    rfl

/-- The inventory after every instance that is probed has been judged by its own probe. -/
def judgeAll (onProbe : Candidate → Reaction) (now : UInt64) (inv : Inventory) : Inventory :=
  { inv with
    entries := inv.entries.map fun e =>
      { e with instances := e.instances.map (tested onProbe now e.service) } }

theorem noteAll_candidates {inv : Inventory} (hn : inv.ids.Nodup)
    (onProbe : Candidate → Reaction) (now : UInt64) :
    noteAll now (inv.candidates.map fun c => (c, onProbe c)) inv = judgeAll onProbe now inv := by
  have hids : ((inv.candidates.map fun c => (c, onProbe c)).map (·.1.id)).Nodup := by
    rw [List.map_map]
    exact hn.sublist (Inventory.candidates_ids_sublist inv)
  rw [noteAll_eq hn hids, Inventory.amend, judgeAll]
  congr 1
  refine List.map_congr_left fun e he => ?_
  have hinstances : ∀ i ∈ e.instances,
      heard now (inv.candidates.map fun c => (c, onProbe c)) i = tested onProbe now e.service i :=
    fun i hi => heard_eq hn onProbe now (Inventory.mem_stored.2 ⟨e, he, rfl, hi⟩)
  rw [List.map_congr_left hinstances]

/-! ## Running a pass -/

section

variable (w : World)

theorem run_probeAll (cs : List Candidate) :
    (probeAll cs).run w = (cs.map fun c => (c, w.fleet.onProbe c),
      { w with fleet := { w.fleet with probed := w.fleet.probed ++ cs } }) := by
  induction cs generalizing w with
  | nil => rw [List.append_nil]; rfl
  | cons c cs ih =>
    rw [probeAll, Activity.run_bind, Activity.run_bind, ih]
    simp only [probe, Fleet.probe, Activity.run_atomically, List.append_assoc,
      List.singleton_append, List.map_cons]
    rfl

theorem run_noteOutcome (c : Candidate) (r : Reaction) :
    ∃ m, (noteOutcome c r).run w = ((), { w with
      inventory := (w.inventory.noteProbe c.id (r == .succeeds) w.clock).2, metrics := m }) := by
  unfold noteOutcome
  split
  case isTrue h =>
    subst h
    exact ⟨w.metrics, rfl⟩
  case isFalse h =>
    rw [beq_false_of_ne h]
    exact ⟨w.metrics.countProbeFailure, rfl⟩

theorem run_noteOutcomes (probes : List (Candidate × Reaction)) :
    ∃ m, (noteOutcomes probes).run w
      = ((), { w with inventory := noteAll w.clock probes w.inventory, metrics := m }) := by
  induction probes generalizing w with
  | nil => exact ⟨w.metrics, rfl⟩
  | cons p probes ih =>
    obtain ⟨c, r⟩ := p
    obtain ⟨m₁, h₁⟩ := run_noteOutcome w c r
    obtain ⟨m₂, h₂⟩ := ih { w with
      inventory := (w.inventory.noteProbe c.id (r == .succeeds) w.clock).2, metrics := m₁ }
    refine ⟨m₂, ?_⟩
    rw [noteOutcomes, Activity.run_bind, h₁, h₂]
    rfl

/-- A pass notes its outcomes, sweeps, and publishes what is left if something was evicted. -/
theorem run_pass (cfg : Settings) :
    let probes := w.inventory.candidates.map fun c => (c, w.fleet.onProbe c)
    let swept := (noteAll w.clock probes w.inventory).sweep cfg.policy w.clock
    let report := ((pass cfg).run w).1
    let later := ((pass cfg).run w).2
    report.probed = w.inventory.candidates.length ∧
      report.failed = probes.countP (·.2 ≠ .succeeds) ∧
      report.evicted = swept.1 ∧
      later.inventory = swept.2 ∧
      later.fleet = { w.fleet with probed := w.fleet.probed ++ w.inventory.candidates } ∧
      (swept.1 = [] → later.published = w.published ∧ later.files = w.files) ∧
      (swept.1 ≠ [] → later.published = swept.2.scrapeGroups :: w.published) := by
  intro probes swept
  have hprobes := run_probeAll w w.inventory.candidates
  obtain ⟨metrics, hnoted⟩ := run_noteOutcomes
    { w with fleet := { w.fleet with probed := w.fleet.probed ++ w.inventory.candidates } } probes
  simp only [pass, Activity.run_bind, look, Activity.run_observe, hprobes]
  simp only [probes] at hnoted
  rw [hnoted]
  simp only [World.sweep, readClock, onInventory, count, World.gauge, Activity.run_bind,
    Activity.run_observe, Activity.run_atomically, Activity.run_change]
  cases swept.1 with
  | nil => simp [swept, probes]
  | cons ev evs => simp [swept, probes, refreshScrapes, publish, look]

end

/-! ## One pass -/

section

variable (inv : Inventory) (onProbe : Candidate → Reaction)

theorem length_candidates : inv.candidates.length = inv.stored.countP fun p => isWatched p.2 := by
  rw [Inventory.candidates_eq, List.length_map, List.countP_eq_length_filter]
  rfl

theorem countP_candidates :
    (inv.candidates.map fun c => (c, onProbe c)).countP (·.2 ≠ .succeeds)
      = inv.stored.countP
          fun p => isWatched p.2 && decide (onProbe (candidateOf p.1 p.2) ≠ .succeeds) := by
  rw [Inventory.candidates_eq, List.countP_map, List.countP_map, List.countP_filter]
  refine List.countP_congr fun p _ => ?_
  rw [Bool.and_comm]
  rfl

theorem stored_judgeAll (now : UInt64) :
    (judgeAll onProbe now inv).stored
      = inv.stored.map fun p => (p.1, tested onProbe now p.1 p.2) := by
  simp only [judgeAll, Inventory.stored, List.flatMap_map, List.map_flatMap, List.map_map,
    Function.comp_def]

end

/-- A pass that nobody disturbs, in every inventory that a run leads to. It probes what is visible
    and answers probes, each instance once and in order, and counts those that did not succeed. An
    instance that was probed is judged by the outcome of its own probe and all others stay as they
    are; then exactly what the policy does not keep is evicted, in order and with its reason.
    Entries and the last number stay. The groups of the inventory that is left are published
    once if something was evicted, and otherwise nothing is published and no file changes. -/
theorem pass_exact (cfg : Settings) (before : List Event) (w : World)
    (h : Inventory.creations cfg.policy .empty before < UInt64.size)
    (hw : w.inventory = Inventory.after cfg.policy .empty before) :
    let inv := w.inventory
    let onProbe := w.fleet.onProbe
    let report := ((pass cfg).run w).1
    let later := ((pass cfg).run w).2
    report.probed = inv.stored.countP (fun p => isWatched p.2) ∧
      report.failed = inv.stored.countP
        (fun p => isWatched p.2 && decide (onProbe (candidateOf p.1 p.2) ≠ .succeeds)) ∧
      later.fleet.probed = w.fleet.probed
        ++ (inv.stored.filter fun p => isWatched p.2).map (fun p => candidateOf p.1 p.2) ∧
      later.inventory.entries = inv.entries.map (fun e => { e with
        instances := (e.instances.map (tested onProbe w.clock e.service)).filter
          (cfg.policy.keeps w.clock) }) ∧
      later.inventory.lastId = inv.lastId ∧
      report.evicted.map (·.subject)
        = (inv.stored.map fun p => (p.1, tested onProbe w.clock p.1 p.2)).filter
            (fun p => !cfg.policy.keeps w.clock p.2) ∧
      (∀ ev ∈ report.evicted, cfg.policy.verdict? ev.removed w.clock = some ev.reason) ∧
      (report.evicted = [] → later.published = w.published ∧ later.files = w.files) ∧
      (report.evicted ≠ [] → later.published = later.inventory.scrapeGroups :: w.published) := by
  intro inv onProbe report later
  have hn : inv.ids.Nodup := by
    simp only [inv, hw]
    exact (Inventory.ready_empty h).wellFormed_after.ids_nodup
  obtain ⟨hprobed, hfailed, hevicted, hleft, hfleet, hquiet, hpublished⟩ := run_pass w cfg
  have hnoted := noteAll_candidates hn onProbe w.clock
  simp only [inv, onProbe] at hnoted
  rw [hnoted] at hevicted hleft hquiet hpublished
  refine ⟨?_, ?_, ?_, ?_, ?_, ?_, ?_, ?_, ?_⟩
  · exact hprobed.trans (length_candidates inv)
  · exact hfailed.trans (countP_candidates inv onProbe)
  · rw [hfleet, Inventory.candidates_eq]
    rfl
  · rw [hleft, Inventory.sweep_eq, Inventory.retain, judgeAll, List.map_map]
    rfl
  · rw [hleft]
    rfl
  · rw [hevicted, Inventory.sweep_subjects, stored_judgeAll]
  · intro ev hev
    rw [hevicted] at hev
    exact Inventory.verdict?_of_mem_sweep hev
  · rw [hevicted]
    exact hquiet
  · rw [hevicted, hleft]
    exact hpublished

/-- Two services share an address and only one of them answers there. Of the others, one does not
    answer probes and one has been withdrawn. -/
theorem pass_exact_shared :
    let kv : Service := ⟨"kv", none⟩
    let web : Service := ⟨"web", some "ns/g/web/1"⟩
    let shared : Endpoint := ⟨"10.0.0.5", 9000⟩
    let before : List Event := [⟨1000, .enrol kv shared [.status]⟩,
      ⟨1000, .enrol kv ⟨"10.0.0.6", 9000⟩ [.tcp]⟩, ⟨1000, .enrol web shared [.status]⟩,
      ⟨1000, .enrol web ⟨"10.0.0.7", 9000⟩ [.status]⟩, ⟨2000, .retire 4⟩]
    let cfg : Settings := { policy := { maxFailures := 0 } }
    let fleet : Fleet := { onProbe := fun c => if c.serviceName = "kv" then .hangs else .succeeds }
    let w : World := { clock := 31000, unixTime := 0, fleet
                       inventory := .after cfg.policy .empty before }
    let silent : Instance := { Instance.enrolled 1 shared [.status] 1000 with failures := 1 }
    let hidden : Instance := (Instance.enrolled 4 ⟨"10.0.0.7", 9000⟩ [.status] 1000).hidden
    let report := ((pass cfg).run w).1
    let later := ((pass cfg).run w).2
    Inventory.creations cfg.policy .empty before < UInt64.size ∧ report.probed = 2 ∧
      report.failed = 1 ∧ report.evicted.map (·.subject) = [(kv, silent), (web, hidden)] ∧
      (∀ ev ∈ report.evicted, cfg.policy.verdict? ev.removed 31000 = some ev.reason) ∧
      later.inventory.entries = [⟨kv, [.enrolled 2 ⟨"10.0.0.6", 9000⟩ [.tcp] 1000]⟩,
        ⟨web, [{ Instance.enrolled 3 shared [.status] 1000 with lastSuccess := 31000 }]⟩] ∧
      later.published.length = 1 := by
  intro kv web shared before cfg fleet w silent hidden report later
  have h : Inventory.creations cfg.policy .empty before < UInt64.size := by decide
  obtain ⟨hprobed, hfailed, -, hentries, -, hsubjects, hreasons, -, hpublished⟩ :=
    pass_exact cfg before w h rfl
  have hevicted : report.evicted.map (·.subject) = [(kv, silent), (web, hidden)] :=
    hsubjects.trans (by decide)
  have hsome : report.evicted ≠ [] := by
    intro hnone
    rw [hnone] at hevicted
    cases hevicted
  refine ⟨h, hprobed.trans (by decide), hfailed.trans (by decide), hevicted, hreasons, ?_, ?_⟩
  · rw [hentries]
    decide
  · rw [hpublished hsome]
    rfl

end ServiceRegistry.Supervision
