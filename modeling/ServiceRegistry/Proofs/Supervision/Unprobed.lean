/-
  ServiceRegistry.Proofs.Supervision.Unprobed

  Outcomes of probes concern only instances that answer probes. The policy itself makes no
  such difference: it would evict any instance that has failed too often. That the others
  have no failures depends on whole runs, in which any number of passes may be at work at
  once: a pass reads only candidates, what a candidate was read from keeps its capabilities
  however often it is registered again, and its number stands for no other instance later
  (`Denotes`).
-/
import ServiceRegistry.Client.Registry
import ServiceRegistry.Proofs.Inventory.Probing
import ServiceRegistry.Proofs.Server.Promises
import ServiceRegistry.Proofs.Supervision.Outcomes
import ServiceRegistry.Proofs.Supervision.Rounds

namespace ServiceRegistry

theorem Instance.isProbeable_iff {i : Instance} :
    i.isProbeable = true ↔ Capability.status ∈ i.capabilities :=
  List.contains_iff_mem

namespace Supervision

open Inventory (CleanRecord Event Moment)
open Message Net World
open Server (Conclusion Episode atWork)

/-! ## Records of instances that are not probed -/

/-- Instances that do not answer probes have clean records. -/
def UnprobedClean (inv : Inventory) : Prop :=
  ∀ i ∈ inv.instances, i.isProbeable = false → CleanRecord i

section

variable {policy : Policy}

theorem UnprobedClean.event {m : Moment} (h : UnprobedClean m.met) (hm : m.Sound policy)
    (hnote : ∀ id success, m.action ≠ .noteProbe id success) :
    UnprobedClean (m.after policy) := by
  intro j hj hunprobed
  obtain ⟨s, hj⟩ := Inventory.mem_instances.1 hj
  rcases hm.sameRecord hnote hj with ⟨-, hclean⟩ | ⟨i, hi, hsame⟩
  · exact hclean
  · rw [hsame.isProbeable_eq] at hunprobed
    exact (h i (Inventory.mem_instances.2 ⟨s, hi⟩) hunprobed).of_same hsame

/-- The outcome of a probe reaches an instance that answers probes, or none. -/
theorem UnprobedClean.note {inv : Inventory} (h : UnprobedClean inv) (hw : inv.WellFormed)
    {c : Candidate} (hc : Denotes inv c) (success : Bool) (now : UInt64) :
    UnprobedClean (inv.noteProbe c.id success now).2 := by
  intro j hj hunprobed
  obtain ⟨s, hj⟩ := Inventory.mem_instances.1 hj
  obtain ⟨i, hi, rfl⟩ := (Inventory.mem_stored_noteProbe hw.ids_nodup).1 hj
  have hprobeable := (Inventory.sameRegistration_onlyAt
    (fun k => Inventory.sameRegistration_probed k success now) c.id i).isProbeable_eq
  rw [hprobeable] at hunprobed
  have hne : i.id ≠ c.id := by
    intro hid
    obtain ⟨t, k, hbears, hk, -, -, hprobed⟩ := hc
    obtain ⟨-, hsame⟩ := hbears.unique s i hi (hid.trans hk.symm)
    rw [hsame.isProbeable_eq, hprobed] at hunprobed
    cases hunprobed
  rw [Inventory.onlyAt, if_neg hne]
  exact h i (Inventory.mem_instances.2 ⟨s, hi⟩) hunprobed

/-- Only what answers probes is evicted for their outcomes. -/
structure Warranted (ev : Eviction) : Prop where
  unprobed : .status ∉ ev.removed.capabilities → ev.reason = .stale ∨ ev.reason = .disabled
  unanswered : ev.reason = .noRecentSuccess → .status ∈ ev.removed.capabilities

/-- Whoever sweeps, what is not probed is not evicted for its record. -/
theorem UnprobedClean.warranted {m : Moment} (h : UnprobedClean m.met) (hn : m.met.ids.Nodup)
    {ev : Eviction} (hev : ev ∈ (m.answer policy).evictions) : Warranted ev := by
  obtain ⟨i, hevicts⟩ := Moment.exists_evicts hn hev
  have hrecent : ev.reason = .noRecentSuccess → ev.removed.isProbeable = true := by
    intro hreason
    have hverdict := hevicts.verdict?
    rw [hreason] at hverdict
    exact Policy.isProbeable_of_verdict? hverdict
  refine ⟨fun hstatus => ?_, fun hreason => Instance.isProbeable_iff.1 (hrecent hreason)⟩
  rw [← Instance.isProbeable_iff, Bool.not_eq_true] at hstatus
  cases hreason : ev.reason with
  | stale => exact .inl rfl
  | disabled => exact .inr rfl
  | excessiveFailures =>
    -- It has no failures, and no policy allows fewer than that.
    have hverdict := hevicts.verdict?
    rw [hreason] at hverdict
    have hgt := Policy.failures_gt_of_verdict? hverdict
    rw [hevicts.isProbeable_eq] at hstatus
    have hclean := h i (Inventory.mem_instances.2 ⟨_, hevicts.stored⟩) hstatus
    rw [hevicts.failures_eq, hclean.failures_eq] at hgt
    exact absurd hgt (UInt32.not_lt.2 UInt32.zero_le)
  | noRecentSuccess =>
    rw [hrecent hreason] at hstatus
    cases hstatus

end

/-! ## Many passes at once -/

/-- The candidates that a pass has read and is not done with. -/
def Progress.candidates (g : Progress) : List Candidate := g.waiting ++ g.pending.map (·.1)

/-- What is left of an episode: a pass that has got so far, or a request. -/
def Resumes (policy : Policy) (x : Work Conclusion) (g : Progress) : Prop :=
  Follows (Advances policy) (fun _ g' => g' = .resting) g x ∨
    g = .resting ∧ Steps policy Server.Requested x

/-- How far all passes have got, and the inventory. -/
structure Separated (policy : Policy) (gs : Nat → Progress) (s : Crew Conclusion) : Prop where
  resumes : ∀ k x, s.tasks[k]? = some x → Resumes policy x (gs k)
  /-- What the passes have read still means what it meant. -/
  denotes : ∀ k, ∀ c ∈ (gs k).candidates, Denotes s.world.inventory c
  clean : UnprobedClean s.world.inventory

section

variable {policy : Policy} {g g' : Progress} {w w' : World}

theorem Advances.changes (h : Advances policy g w w' g') :
    Changes policy (CreatesNothing policy) w.inventory w'.inventory := by
  cases h with
  | idle hinventory | read hinventory | probe hinventory => exact .inl hinventory
  | note now hinventory => exact .inr ⟨⟨now, .noteProbe _ _⟩, fun _ => rfl, hinventory⟩
  | sweep now hinventory => exact .inr ⟨⟨now, .sweep⟩, fun _ => rfl, hinventory⟩

/-- A pass knows no candidates but those that it knew before, and those that it has just read. -/
theorem Advances.mem_candidates (h : Advances policy g w w' g') {c : Candidate}
    (hc : c ∈ g'.candidates) : c ∈ g.candidates ∨ c ∈ w.inventory.candidates := by
  cases h with
  | idle => exact .inl hc
  | read => exact .inr (by simpa [Progress.candidates, Progress.waiting, Progress.pending] using hc)
  | probe =>
    left
    simp only [Progress.candidates, Progress.waiting, Progress.pending, List.map_append,
      List.map_cons, List.map_nil, List.mem_append, List.mem_cons, List.not_mem_nil,
      or_false] at hc ⊢
    tauto
  | note => exact .inl (List.mem_cons_of_mem _ hc)
  | sweep => cases hc

theorem UnprobedClean.advances (h : UnprobedClean w.inventory) (hw : w.inventory.WellFormed)
    (hdenotes : ∀ c ∈ g.candidates, Denotes w.inventory c) (hstep : Advances policy g w w' g') :
    UnprobedClean w'.inventory := by
  cases hstep with
  | idle hinventory | read hinventory | probe hinventory =>
    rw [hinventory]
    exact h
  | note now hinventory =>
    rw [hinventory]
    exact h.note hw (hdenotes _ List.mem_cons_self) _ now
  | sweep now hinventory =>
    rw [hinventory]
    have hsound : (Moment.mk ⟨now, .sweep⟩ w.inventory).Sound policy :=
      CreatesNothing.sound (fun _ => rfl) hw
    exact UnprobedClean.event (m := ⟨⟨now, .sweep⟩, w.inventory⟩) h hsound fun _ _ => nofun

end

section

variable {policy : Policy} {gs : Nat → Progress} {s : Crew Conclusion} {t : Tick}
variable {ticks : List Tick} {fits : Nat → Event → Prop}

/-- What a step of an episode keeps: what has been read means what it meant, and the records of
    what is not probed are clean. -/
structure Kept (g g' : Progress) (inv inv' : Inventory) : Prop where
  read : ∀ c ∈ g'.candidates, c ∈ g.candidates ∨ c ∈ inv.candidates
  denotes : ∀ c, Denotes inv c → Denotes inv' c
  clean : UnprobedClean inv'

theorem Separated.step (h : Separated policy gs s) {k : Nat} {act : World → World}
    {next : World → Work Conclusion} (hx : s.tasks[k]? = some (.step act next))
    (hready : s.Ready policy fits (.proceed k :: ticks)) :
    ∃ g', Resumes policy (next s.world) g' ∧
      Kept (gs k) g' s.world.inventory (act s.world).inventory := by
  rcases h.resumes k _ hx with hpass | ⟨hresting, hrequest⟩
  · obtain ⟨g', hrule, hnext⟩ := hpass s.world
    refine ⟨g', .inl hnext, fun c => hrule.mem_candidates, fun c hc => ?_, ?_⟩
    · exact hc.changes hready.wellFormed hrule.changes
    · exact h.clean.advances hready.wellFormed (h.denotes k) hrule
  · refine ⟨gs k, .inr ⟨hresting, (hrequest s.world).2⟩, ?_⟩
    rcases (hrequest s.world).1 with hsame | ⟨e, he, heq⟩
    · rw [hsame]
      exact ⟨fun c hc => .inl hc, fun c hc => hc, h.clean⟩
    · have hafter : (s.perform (.proceed k)).world.inventory
          = (Moment.mk e s.world.inventory).after policy := by
        rw [Crew.perform_proceed hx, heq]
      have hsound := hready.sound hafter
      rw [heq]
      exact ⟨fun c hc => .inl hc, fun c hc => Denotes.after hc hsound,
        UnprobedClean.event (m := ⟨e, s.world.inventory⟩) h.clean hsound he.ne_noteProbe⟩

theorem Separated.perform (h : Separated policy gs s) (hready : s.Ready policy fits (t :: ticks)) :
    ∃ gs', Separated policy gs' (s.perform t) := by
  rcases s.perform_cases t with ⟨k, act, next, rfl, hx, hafter⟩ | ⟨hworld, htasks⟩
  · obtain ⟨g', hresumes, hread, hdenotes, hclean⟩ := h.step hx hready
    rw [hafter]
    refine ⟨Function.update gs k g', ?_, ?_, hclean⟩
    · exact forall_set_update (p := fun _ x g => Resumes policy x g) h.resumes hresumes
    · refine (Function.forall_update_iff gs fun _ g => ∀ c ∈ g.candidates,
        Denotes (act s.world).inventory c).2 ⟨fun c hc => hdenotes c ?_, fun j _ c hc => ?_⟩
      · -- What the pass has just read means what is stored.
        exact (hread c hc).elim (h.denotes k c) (denotes_of_mem_candidates hready.wellFormed)
      · exact hdenotes c (h.denotes j c hc)
  · refine ⟨gs, ?_, ?_, ?_⟩
    · rw [htasks]
      exact h.resumes
    · rw [hworld]
      exact h.denotes
    · rw [hworld]
      exact h.clean

theorem Separated.after (h : Separated policy gs s) (hready : s.Ready policy fits ticks) :
    ∃ gs', Separated policy gs' (s.after ticks) := by
  induction ticks generalizing s gs with
  | nil => exact ⟨gs, h⟩
  | cons t ticks ih =>
    obtain ⟨gs₁, h₁⟩ := h.perform hready
    exact ih h₁ hready.tail

end

theorem resumes_concludes (cfg : Settings) (episode : Episode) :
    Resumes cfg.policy (episode.concludes cfg) .resting := by
  cases episode with
  | request peer r =>
    exact .inr ⟨rfl, steps_bind (Server.steps_respond peer r) fun _ => steps_pure _⟩
  | pass => exact .inl (follows_bind (advances_pass cfg) fun _ _ hg => follows_pure hg)

theorem separated_atWork {cfg : Settings} {episodes : List Episode} {w : World}
    (hw : w.inventory = .empty) :
    Separated cfg.policy (fun _ => .resting) (atWork cfg episodes w) where
  resumes := by
    intro k x hx
    rw [atWork, List.getElem?_map, Option.map_eq_some_iff] at hx
    obtain ⟨episode, -, rfl⟩ := hx
    exact resumes_concludes cfg episode
  denotes := fun _ => List.forall_mem_nil _
  clean := by
    show UnprobedClean w.inventory
    rw [hw]
    exact List.forall_mem_nil _

theorem clean_atWork {cfg : Settings} {episodes : List Episode} {w : World}
    (hw : w.inventory = .empty) {ticks : List Tick}
    {fits : Nat → Event → Prop} (hready : (atWork cfg episodes w).Ready cfg.policy fits ticks) :
    UnprobedClean ((atWork cfg episodes w).after ticks).world.inventory := by
  obtain ⟨gs, hseparated⟩ := (separated_atWork hw).after hready
  exact hseparated.clean

/-- What a pass reports as evicted, it has swept away in one of its steps. -/
theorem notes_pass (cfg : Settings) :
    Follows (Notes (Performs fun now inv => inv.sweep cfg.policy now))
      (fun report g => g = some report.evicted) none (pass cfg) := by
  refine follows_bind (notes_any _) fun cs _ _ => ?_
  refine follows_bind (notes_any _) fun probes _ _ => ?_
  refine follows_bind (notes_any _) fun _ _ _ => ?_
  refine follows_bind (notes_onInventory _ _) fun evicted g hg => ?_
  subst hg
  refine follows_bind (notes_any _) fun _ g hg => ?_
  subst hg
  dsimp only
  split
  · refine follows_bind (notes_any _) fun _ g hg => ?_
    subst hg
    exact follows_bind (notes_any _) fun _ g hg => follows_pure hg
  · exact follows_bind (notes_any _) fun _ g hg => follows_pure hg

/-- A pass has swept at a moment of the schedule, so what holds of every moment holds of what
    it reports. -/
theorem warranted_of_report {cfg : Settings} {episodes : List Episode} {w : World}
    (hw : w.inventory = .empty) {ticks : List Tick} {fits : Nat → Event → Prop}
    (hready : (atWork cfg episodes w).Ready cfg.policy fits ticks) {k : Nat} {report : Report}
    (hepisode : episodes[k]? = some .pass)
    (hdone : ((atWork cfg episodes w).after ticks).value? k = some (.surveyed report))
    {ev : Eviction} (hev : ev ∈ report.evicted) : Warranted ev := by
  have hk : (atWork cfg episodes w).tasks[k]? = some (Episode.pass.concludes cfg) := by
    show (episodes.map (·.concludes cfg))[k]? = _
    rw [List.getElem?_map, hepisode, Option.map_some]
  have hpass : Follows (Notes (Performs fun now inv => inv.sweep cfg.policy now))
      (fun c g => ∀ report, c = .surveyed report → g = some report.evicted) none
      (Episode.pass.concludes cfg) := by
    refine follows_bind (notes_pass cfg) fun report g hg => follows_pure ?_
    rintro _ ⟨⟩
    exact hg
  obtain ⟨g, hnote, htakes⟩ := exists_takes_of_done hk hpass hdone
  obtain rfl := hnote report rfl
  obtain hnone | ⟨_, ⟨⟩, earlier, later, hticks, clock, hsweep⟩ := htakes
  · cases hnone
  rw [hticks] at hready
  have hearlier := hready.append_left
  let m : Moment := ⟨⟨clock, .sweep⟩, ((atWork cfg episodes w).after earlier).world.inventory⟩
  have hanswer : (m.answer cfg.policy).evictions = report.evicted := congrArg Prod.fst hsweep
  have hwell : m.met.WellFormed := hearlier.wellFormed_after
  rw [← hanswer] at hev
  exact (clean_atWork hw hearlier).warranted hwell.ids_nodup hev

/-- In a registry that was empty at first, at any moment of any schedule of requests and
    passes. Every stored instance that does not answer probes has no failures, and its last
    success is its registration. Whatever event happens then, a sweep, a withdrawal or any
    other, it evicts such an instance only because that is stale or disabled, and it evicts for
    want of a recent success only what answers probes. So do the sweeps that passes report. -/
theorem outcomes_of_probed_only (cfg : Settings) (episodes : List Episode) (w : World)
    (hw : w.inventory = .empty) (ticks : List Tick) :
    let crew := atWork cfg episodes w
    let now := (crew.after ticks).world.inventory
    crew.creations ticks < UInt64.size →
    (∀ s i, (s, i) ∈ now.stored → .status ∉ i.capabilities →
      i.failures = 0 ∧ i.lastSuccess = i.firstRegistered) ∧
    (∀ e ev, ev ∈ ((Moment.mk e now).answer cfg.policy).evictions → Warranted ev) ∧
    ∀ k report, episodes[k]? = some .pass →
      (crew.after ticks).value? k = some (.surveyed report) →
      ∀ ev ∈ report.evicted, Warranted ev := by
  intro crew now hroom
  have hready : crew.Ready cfg.policy (fun _ => Server.LeavesNoneHidden) ticks :=
    Server.ready_episodes hw hroom
  refine ⟨?_, ?_, ?_⟩
  · intro s i hi hstatus
    rw [← Instance.isProbeable_iff, Bool.not_eq_true] at hstatus
    have hclean := clean_atWork hw hready i (Inventory.mem_instances.2 ⟨s, hi⟩) hstatus
    exact ⟨hclean.failures_eq, hclean.lastSuccess_eq⟩
  · intro e ev hev
    exact (clean_atWork hw hready).warranted (m := ⟨e, now⟩)
      hready.wellFormed_after.ids_nodup hev
  · intro k report hepisode hdone ev hev
    exact warranted_of_report hw hready hepisode hdone hev

/-- A service has one port that answers no probes and one that fails them. The first pass evicts
    what fails, and the second what has grown stale in the meantime. -/
theorem outcomes_of_probed_only_stale :
    let registry : Client.Handle := { origin := "http://registry" }
    let register := (registry.call .register (RegisterRequest.toJson
      ⟨⟨"kv", none⟩, [⟨"10.0.0.5", 9000, [.tcp]⟩, ⟨"10.0.0.5", 9001, [.status]⟩]⟩)).request
    let cfg : Settings := { policy := { maxFailures := 0 } }
    let episodes : List Episode := [.request none register, .pass, .pass]
    let fleet : Fleet := { onProbe := fun _ => .fails }
    let w : World := { clock := 1000, unixTime := 0, fleet }
    let ticks : List Tick := List.replicate 8 (.proceed 0) ++ List.replicate 11 (.proceed 1)
      ++ .drift ⟨200000, 0, fleet⟩ :: List.replicate 7 (.proceed 2)
    let failed : Eviction := ⟨⟨"kv", none⟩, ⟨2, ⟨"10.0.0.5", 9001⟩, [.status], false, 1000, 1000,
      1000, 1⟩, .excessiveFailures⟩
    let grownStale : Eviction := ⟨⟨"kv", none⟩, ⟨1, ⟨"10.0.0.5", 9000⟩, [.tcp], false, 1000,
      1000, 1000, 0⟩, .stale⟩
    (atWork cfg episodes w).creations ticks = 2 ∧
    ((atWork cfg episodes w).after ticks).value? 1
      = some (.surveyed ⟨1, 1, [failed], false⟩) ∧
    ((atWork cfg episodes w).after ticks).value? 2
      = some (.surveyed ⟨0, 0, [grownStale], false⟩) ∧
    Warranted failed ∧ Warranted grownStale := by
  intro registry register cfg episodes fleet w ticks failed grownStale
  have hmade : (atWork cfg episodes w).creations ticks = 2 := by decide +kernel
  have hroom : (atWork cfg episodes w).creations ticks < UInt64.size := by
    rw [hmade]
    decide
  have hfirst : ((atWork cfg episodes w).after ticks).value? 1
      = some (.surveyed ⟨1, 1, [failed], false⟩) := by decide +kernel
  have hsecond : ((atWork cfg episodes w).after ticks).value? 2
      = some (.surveyed ⟨0, 0, [grownStale], false⟩) := by decide +kernel
  obtain ⟨-, -, hreports⟩ := outcomes_of_probed_only cfg episodes w rfl ticks hroom
  exact ⟨hmade, hfirst, hsecond, hreports 1 _ rfl hfirst failed List.mem_cons_self,
    hreports 2 _ rfl hsecond grownStale List.mem_cons_self⟩

end Supervision

end ServiceRegistry
