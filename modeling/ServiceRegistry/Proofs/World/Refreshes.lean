/-
  ServiceRegistry.Proofs.World.Refreshes

  Publications of many jobs at once. A job reads the groups in one step and publishes them in
  the next, and others may come in between: they may change the groups, and they may read and
  publish later groups first. So although every change is followed by a publication, the
  groups published last may be older than others that were published before them.

  What does hold, once every change is followed by a publication of the same job and no
  publication is under way (`Settled`, `inFlight`):

    * the groups of the inventory are among those published (`Fresh`);
    * they are those published last, if no two publications were under way at any time
      (`Latest`).

  Both are invariants of the phases of all jobs together with the world.
-/
import ServiceRegistry.Proofs.World.Publishing
import ServiceRegistry.Proofs.World.Schedule

namespace ServiceRegistry.World

variable {J : Type} (work : J → Work Unit)

/-! ## Changes and publications of a schedule -/

/-- The move changes the groups. -/
def Turn.Regroups (t : Turn J) : Prop :=
  (t.after work).world.inventory.scrapeGroups ≠ t.met.world.inventory.scrapeGroups

/-- The move publishes groups. -/
def Turn.Writes (t : Turn J) : Prop := (t.after work).world.published ≠ t.met.world.published

instance (t : Turn J) : Decidable (t.Writes work) :=
  inferInstanceAs (Decidable ((t.after work).world.published ≠ t.met.world.published))

/-- The jobs that have read the groups and publish them in their next step. -/
def Running.inFlight (r : Running J) : List Nat :=
  (List.range r.jobs.length).filter fun k => (Turn.mk r (.proceed k)).Writes work

/-- Every job has come to its end. -/
def Running.finished (r : Running J) : Bool := r.jobs.all (·.2.value?.isSome)

/-- The job at a position has changed the groups and not published since. -/
def Owes (ts : List (Turn J)) (k : Nat) : Prop :=
  ∃ past t rest, ts = past ++ t :: rest ∧ t.Regroups work ∧ t.move = .proceed k ∧
    ∀ u ∈ rest, u.move = .proceed k → ¬ u.Writes work

/-- Every change of the groups is followed by a publication of the same job. -/
def Settled (ts : List (Turn J)) : Prop := ∀ k, ¬ Owes work ts k

section

variable {work} {ts : List (Turn J)} {t : Turn J} {k : Nat}

theorem Owes.snoc (h : Owes work ts k) (ht : t.move = .proceed k → ¬ t.Writes work) :
    Owes work (ts ++ [t]) k := by
  obtain ⟨past, u, rest, rfl, hregroups, hmove, hrest⟩ := h
  refine ⟨past, u, rest ++ [t], ?_, hregroups, hmove, ?_⟩
  · rw [List.append_assoc, List.cons_append]
  · intro v hv hk
    rcases List.mem_append.1 hv with hv | hv
    · exact hrest v hv hk
    · rw [List.mem_singleton.1 hv] at hk ⊢
      exact ht hk

theorem owes_snoc_of_regroups (hregroups : t.Regroups work) (hmove : t.move = .proceed k) :
    Owes work (ts ++ [t]) k :=
  ⟨ts, t, [], rfl, hregroups, hmove, List.forall_mem_nil _⟩

/-- Who owes after a move has owed before it, or changed the groups in it; and it has not
    published in it. -/
theorem Owes.of_snoc (h : Owes work (ts ++ [t]) k) :
    t.Regroups work ∧ t.move = .proceed k ∨
      Owes work ts k ∧ (t.move = .proceed k → ¬ t.Writes work) := by
  obtain ⟨past, u, rest, heq, hregroups, hmove, hrest⟩ := h
  rcases List.eq_nil_or_concat' rest with rfl | ⟨rest, v, rfl⟩
  · -- The change is the move itself.
    obtain ⟨-, hu⟩ := List.append_inj' heq rfl
    obtain rfl := List.singleton_inj.1 hu
    exact .inl ⟨hregroups, hmove⟩
  · rw [← List.cons_append, ← List.append_assoc] at heq
    obtain ⟨rfl, hv⟩ := List.append_inj' heq rfl
    obtain rfl := List.singleton_inj.1 hv
    refine .inr ⟨⟨past, u, rest, rfl, hregroups, hmove, fun v hv => ?_⟩, ?_⟩
    · exact hrest v (List.mem_append_left _ hv)
    · exact hrest _ (List.mem_append_right _ (List.mem_singleton.2 rfl))

end

/-! ## The phases of all jobs -/

/-- The phases of the jobs after some moves; a position without a job owes nothing. -/
structure Tracked (ts : List (Turn J)) (r : Running J) (phases : Nat → Phase) : Prop where
  follows : ∀ k x, r.jobs[k]? = some x →
    Follows Publishes (fun _ p => p = .free false) (phases k) x.2
  vacant : ∀ k, r.jobs[k]? = none → phases k = .free false
  /-- The phase tells who owes. -/
  owes : ∀ k, phases k = .free true → Owes work ts k
  settled : ∀ k, phases k = .free false → ¬ Owes work ts k

/-- What a move does to the phases and the world. -/
inductive Advances (phases : Nat → Phase) (w : World) : (Nat → Phase) → World → Prop
  | still {w' : World} (hinventory : w'.inventory = w.inventory)
    (hpublished : w'.published = w.published) : Advances phases w phases w'
  | step {w' : World} {p : Phase} (k : Nat) (h : Publishes (phases k) w w' p) :
    Advances phases w (Function.update phases k p) w'

section

variable {work} (hwork : ∀ job, Settles (work job))
variable {ts : List (Turn J)} {t : Turn J} {phases : Nat → Phase}

theorem follows_of_settles {x : Work Unit} (h : Settles x) :
    Follows Publishes (fun _ p => p = .free false) (.free false) x := by
  refine h.mono fun _ p hp => ?_
  obtain ⟨_, rfl, rfl⟩ := hp
  rfl

theorem Publishes.owes_snoc {k : Nat} {p q : Phase}
    (h : Publishes q t.met.world (t.after work).world p) (hmove : t.move = .proceed k)
    (hq : q = .free true → Owes work ts k) (hp : p = .free true) : Owes work (ts ++ [t]) k := by
  subst hp
  -- A phase that owes comes from one that did, or from a change.
  cases h with
  | keep _ hpublished => exact (hq rfl).snoc fun _ hwrites => hwrites hpublished
  | change hgroups _ => exact owes_snoc_of_regroups hgroups hmove

theorem Publishes.not_owes_snoc {k : Nat} {p q : Phase}
    (h : Publishes q t.met.world (t.after work).world p) (hmove : t.move = .proceed k)
    (hq : q = .free false → ¬ Owes work ts k) (hp : p = .free false) :
    ¬ Owes work (ts ++ [t]) k := by
  subst hp
  intro howes
  cases h with
  | keep hgroups _ =>
    rcases howes.of_snoc with ⟨hregroups, -⟩ | ⟨howes, -⟩
    · exact hregroups hgroups
    · exact hq rfl howes
  | write hinventory hpublished =>
    rcases howes.of_snoc with ⟨hregroups, -⟩ | ⟨-, hwrites⟩
    · exact hregroups (congrArg Inventory.scrapeGroups hinventory)
    · refine hwrites hmove ?_
      show (t.after work).world.published ≠ t.met.world.published
      rw [hpublished]
      exact List.cons_ne_self _ _

/-- A step of a job changes the phase of this job alone. -/
theorem Tracked.step (h : Tracked work ts t.met phases) {k : Nat} {job : J}
    {act : World → World} {next : World → Work Unit} (hmove : t.move = .proceed k)
    (hjob : t.met.jobs[k]? = some (job, .step act next))
    (hafter : t.after work = ⟨act t.met.world, t.met.jobs.set k (job, next t.met.world)⟩) :
    ∃ p, Publishes (phases k) t.met.world (t.after work).world p ∧
      Tracked work (ts ++ [t]) (t.after work) (Function.update phases k p) := by
  obtain ⟨p, hrule, hnext⟩ := h.follows k _ hjob t.met.world
  have hworld : (t.after work).world = act t.met.world := by rw [hafter]
  rw [← hworld] at hrule
  have hother : ∀ j, j ≠ k → t.move ≠ .proceed j := by
    intro j hj hmovej
    rw [hmove] at hmovej
    exact hj (Move.proceed.inj hmovej).symm
  refine ⟨p, hrule, ?_, ?_, ?_, ?_⟩
  · -- What is left of the job goes on from the new phase.
    rw [hafter]
    exact forall_set_update (p := fun _ (x : J × Work Unit) q =>
      Follows Publishes (fun _ p => p = .free false) q x.2) h.follows hnext
  · rw [hafter]
    refine (Function.forall_update_iff phases fun j q =>
      (t.met.jobs.set k (job, next t.met.world))[j]? = none → q = .free false).2 ⟨?_, ?_⟩
    · intro hnone
      rw [List.getElem?_set_self (List.getElem?_eq_some_iff.1 hjob).1] at hnone
      cases hnone
    · intro j hj hnone
      rw [List.getElem?_set_ne (Ne.symm hj)] at hnone
      exact h.vacant j hnone
  · refine (Function.forall_update_iff phases fun j q =>
      q = .free true → Owes work (ts ++ [t]) j).2 ⟨hrule.owes_snoc hmove (h.owes k), ?_⟩
    intro j hj hp
    exact (h.owes j hp).snoc fun hmovej => absurd hmovej (hother j hj)
  · refine (Function.forall_update_iff phases fun j q =>
      q = .free false → ¬ Owes work (ts ++ [t]) j).2
        ⟨hrule.not_owes_snoc hmove (h.settled k), ?_⟩
    intro j hj hp howes
    rcases howes.of_snoc with ⟨-, hmovej⟩ | ⟨howes, -⟩
    · exact hother j hj hmovej
    · exact h.settled j hp howes

include hwork in
/-- A move that is no step of a job changes no phase. -/
theorem Tracked.still (h : Tracked work ts t.met phases)
    (hinventory : (t.after work).world.inventory = t.met.world.inventory)
    (hpublished : (t.after work).world.published = t.met.world.published)
    (hjobs : (t.after work).jobs = t.met.jobs ∨
      ∃ job, (t.after work).jobs = t.met.jobs ++ [(job, work job)]) :
    Tracked work (ts ++ [t]) (t.after work) phases where
  follows := by
    intro k x hx
    rcases hjobs with hjobs | ⟨job, hjobs⟩
    · rw [hjobs] at hx
      exact h.follows k x hx
    · rw [hjobs] at hx
      rcases Nat.lt_or_ge k t.met.jobs.length with hk | hk
      · rw [List.getElem?_append_left hk] at hx
        exact h.follows k x hx
      · -- The job has just begun and owes nothing.
        obtain rfl := List.mem_singleton.1 (List.mem_of_getElem? (by
          rwa [List.getElem?_append_right hk] at hx))
        rw [h.vacant k (List.getElem?_eq_none hk)]
        exact follows_of_settles (hwork job)
  vacant := by
    intro k hk
    refine h.vacant k (List.getElem?_eq_none ?_)
    have hlength := List.getElem?_eq_none_iff.1 hk
    rcases hjobs with hjobs | ⟨job, hjobs⟩
    · rwa [hjobs] at hlength
    · rw [hjobs, List.length_append] at hlength
      omega
  owes := fun k hk => (h.owes k hk).snoc fun _ hwrites => hwrites hpublished
  settled := by
    intro k hk howes
    rcases howes.of_snoc with ⟨hregroups, -⟩ | ⟨howes, -⟩
    · exact hregroups (congrArg Inventory.scrapeGroups hinventory)
    · exact h.settled k hk howes

include hwork in
theorem Tracked.turn (h : Tracked work ts t.met phases) :
    ∃ phases', Tracked work (ts ++ [t]) (t.after work) phases' ∧
      Advances phases t.met.world phases' (t.after work).world := by
  rcases t.after_cases work with
    ⟨k, job, act, next, hmove, hjob, hafter⟩ | ⟨hinventory, hpublished, hjobs⟩
  · obtain ⟨p, hrule, htracked⟩ := h.step hmove hjob hafter
    exact ⟨_, htracked, .step k hrule⟩
  · exact ⟨phases, h.still hwork hinventory hpublished hjobs, .still hinventory hpublished⟩

/-! ## Publications under way -/

theorem Publishes.published_ne_iff {p q : Phase} {w w' : World} (h : Publishes q w w' p) :
    w'.published ≠ w.published ↔ ∃ groups, q = .holding groups := by
  cases h with
  | write _ hpublished =>
    rw [hpublished]
    exact ⟨fun _ => ⟨_, rfl⟩, fun _ => List.cons_ne_self _ _⟩
  | keep _ hpublished | change _ hpublished | read _ hpublished =>
    constructor
    · exact fun hne => absurd hpublished hne
    · rintro ⟨groups, hgroups⟩
      cases hgroups

/-- The jobs that publish next are those that hold groups. -/
theorem Tracked.mem_inFlight {r : Running J} (h : Tracked work ts r phases) {k : Nat} :
    k ∈ r.inFlight work ↔ ∃ groups, phases k = .holding groups := by
  have hmem : k ∈ r.inFlight work ↔
      k < r.jobs.length ∧ (Turn.mk r (.proceed k)).Writes work := by
    simp only [Running.inFlight, List.mem_filter, List.mem_range, decide_eq_true_eq]
  rw [hmem]
  cases hjob : r.jobs[k]? with
  | none =>
    have hlength := List.getElem?_eq_none_iff.1 hjob
    rw [h.vacant k hjob]
    constructor
    · intro hk
      omega
    · rintro ⟨groups, hgroups⟩
      cases hgroups
  | some x =>
    obtain ⟨job, remaining⟩ := x
    have hlength : k < r.jobs.length := (List.getElem?_eq_some_iff.1 hjob).1
    have hfollows := h.follows k _ hjob
    cases remaining with
    | done a =>
      -- Nothing is left to do, and nothing is held.
      have hphase : phases k = .free false := hfollows
      have hafter : (Turn.mk r (.proceed k)).after work = r := by
        simp only [Turn.after, Running.perform, hjob]
      rw [hphase]
      constructor
      · rintro ⟨-, hwrites⟩
        refine absurd ?_ hwrites
        rw [hafter]
      · rintro ⟨groups, hgroups⟩
        cases hgroups
    | step act next =>
      obtain ⟨p, hrule, -⟩ := hfollows r.world
      have hafter : ((Turn.mk r (.proceed k)).after work).world = act r.world := by
        simp only [Turn.after, Running.perform, hjob]
      have hwrites : (Turn.mk r (.proceed k)).Writes work ↔
          (act r.world).published ≠ r.world.published := by
        simp only [Turn.Writes, hafter]
      rw [hwrites]
      rw [hrule.published_ne_iff]
      exact and_iff_right hlength

/-! ## The groups of the inventory among those published -/

/-- Someone owes or holds the groups of the inventory, or they have been published. -/
def Fresh (phases : Nat → Phase) (w : World) : Prop :=
  (∃ k, phases k = .free true) ∨ (∃ k, phases k = .holding w.inventory.scrapeGroups) ∨
    w.inventory.scrapeGroups ∈ [] :: w.published

/-- Someone owes, or all that is held is the groups of the inventory, and if nothing is held
    they were published last. -/
def Latest (phases : Nat → Phase) (w : World) : Prop :=
  (∃ k, phases k = .free true) ∨
    (∀ k groups, phases k = .holding groups → groups = w.inventory.scrapeGroups) ∧
      ((∃ k groups, phases k = .holding groups) ∨
        w.published.headD [] = w.inventory.scrapeGroups)

variable {phases' : Nat → Phase} {w w' : World}

theorem update_eq_of_ne {j k : Nat} {p q r : Phase} (hk : phases k = q) (hj : phases j = p)
    (hne : p ≠ q) : Function.update phases k r j = p := by
  have hjk : j ≠ k := by
    rintro rfl
    exact hne (hj.symm.trans hk)
  rw [Function.update_of_ne hjk, hj]

theorem eq_of_update_eq {j k : Nat} {p r : Phase} (hj : Function.update phases k r j = p)
    (hne : p ≠ r) : phases j = p := by
  have hjk : j ≠ k := by
    rintro rfl
    rw [Function.update_self] at hj
    exact hne hj.symm
  rwa [Function.update_of_ne hjk] at hj

theorem Fresh.advances (h : Fresh phases w) (hadvances : Advances phases w phases' w') :
    Fresh phases' w' := by
  cases hadvances with
  | still hinventory hpublished =>
    unfold Fresh
    rw [hinventory, hpublished]
    exact h
  | step k hrule =>
    generalize hphase : phases k = q at hrule
    cases hrule with
    | keep hgroups hpublished =>
      unfold Fresh
      rw [← hphase, Function.update_eq_self, hgroups, hpublished]
      exact h
    | change => exact .inl ⟨k, Function.update_self ..⟩
    | read hinventory =>
      rw [← hinventory]
      exact .inr (.inl ⟨k, Function.update_self ..⟩)
    | @write groups _ _ hinventory hpublished =>
      unfold Fresh
      rw [hinventory, hpublished]
      -- Who else owes or holds does so still; what was held here is published now.
      rcases h with ⟨j, hj⟩ | ⟨j, hj⟩ | hmem
      · exact .inl ⟨j, update_eq_of_ne hphase hj nofun⟩
      · by_cases hgroups : groups = w.inventory.scrapeGroups
        · rw [hgroups]
          exact .inr (.inr (List.mem_cons_of_mem _ List.mem_cons_self))
        · refine .inr (.inl ⟨j, update_eq_of_ne hphase hj fun heq => hgroups ?_⟩)
          exact (Phase.holding.inj heq).symm
      · refine .inr (.inr ?_)
        rcases List.mem_cons.1 hmem with hempty | hmem
        · rw [hempty]
          exact List.mem_cons_self
        · exact List.mem_cons_of_mem _ (List.mem_cons_of_mem _ hmem)

/-- With one publication under way at a time, groups are published as they were read. -/
theorem Latest.advances (h : Latest phases w) (hadvances : Advances phases w phases' w')
    (hone : ∀ j k gs gs', phases' j = .holding gs → phases' k = .holding gs' → j = k) :
    Latest phases' w' := by
  cases hadvances with
  | still hinventory hpublished =>
    unfold Latest
    rw [hinventory, hpublished]
    exact h
  | step k hrule =>
    generalize hphase : phases k = q at hrule
    cases hrule with
    | keep hgroups hpublished =>
      unfold Latest
      rw [← hphase, Function.update_eq_self, hgroups, hpublished]
      exact h
    | change => exact .inl ⟨k, Function.update_self ..⟩
    | read hinventory =>
      have hself : Function.update phases k (.holding w.inventory.scrapeGroups) k
          = .holding w.inventory.scrapeGroups := Function.update_self ..
      refine .inr ⟨fun j groups hj => ?_, .inl ⟨k, _, hself⟩⟩
      -- Nothing else is held.
      obtain rfl := hone j k _ _ hj hself
      rw [hself] at hj
      rw [hinventory]
      exact (Phase.holding.inj hj).symm
    | @write groups _ _ hinventory hpublished =>
      unfold Latest
      rw [hinventory, hpublished]
      rcases h with ⟨j, hj⟩ | ⟨hall, -⟩
      · exact .inl ⟨j, update_eq_of_ne hphase hj nofun⟩
      · refine .inr ⟨fun j gs hj => hall j gs (eq_of_update_eq hj nofun), .inr ?_⟩
        exact hall k groups hphase

/-! ## Whole schedules -/

theorem tracked_start (w : World) : Tracked work [] { world := w } fun _ => .free false where
  follows := by
    intro k x hx
    cases hx
  vacant := fun _ _ => rfl
  owes := by
    intro k hk
    cases hk
  settled := by
    rintro k - ⟨past, t, rest, heq, -⟩
    exact List.append_ne_nil_of_right_ne_nil past (List.cons_ne_nil t rest) heq.symm

theorem Tracked.holding_unique {r : Running J} (h : Tracked work ts r phases)
    (hone : (r.inFlight work).length ≤ 1) (j k : Nat) (gs gs' : List ScrapeGroup)
    (hj : phases j = .holding gs) (hk : phases k = .holding gs') : j = k := by
  have hmemj := h.mem_inFlight.2 ⟨gs, hj⟩
  have hmemk := h.mem_inFlight.2 ⟨gs', hk⟩
  cases hflight : r.inFlight work with
  | nil =>
    rw [hflight] at hmemj
    cases hmemj
  | cons a rest =>
    rw [hflight, List.length_cons] at hone
    obtain rfl : rest = [] := List.eq_nil_of_length_eq_zero (by omega)
    rw [hflight] at hmemj hmemk
    rw [List.mem_singleton.1 hmemj, List.mem_singleton.1 hmemk]

theorem Tracked.free_of_finished {r : Running J} (h : Tracked work ts r phases)
    (hfinished : r.finished = true) (k : Nat) : phases k = .free false := by
  cases hjob : r.jobs[k]? with
  | none => exact h.vacant k hjob
  | some x =>
    have hdone := List.all_eq_true.1 hfinished x (List.mem_of_getElem? hjob)
    have hfollows := h.follows k x hjob
    obtain ⟨job, remaining⟩ := x
    cases remaining with
    | done a => exact hfollows
    | step act next => cases hdone

include hwork in
theorem Tracked.run {r : Running J} (h : Tracked work ts r phases) (moves : List (Move J)) :
    ∃ phases', Tracked work (ts ++ r.turns work moves) (r.after work moves) phases' ∧
      (Fresh phases r.world → Fresh phases' (r.after work moves).world) ∧
      ((∀ t ∈ r.turns work moves, ((t.after work).inFlight work).length ≤ 1) →
        Latest phases r.world → Latest phases' (r.after work moves).world) := by
  -- Along the moves; `ts` are those made already.
  induction moves generalizing ts r phases with
  | nil => exact ⟨phases, by rwa [Running.turns, List.append_nil], fun h => h, fun _ h => h⟩
  | cons m moves ih =>
    obtain ⟨phases₁, htracked, hadvances⟩ := Tracked.turn hwork (t := ⟨r, m⟩) h
    obtain ⟨phases₂, hrest, hfresh, hlatest⟩ := ih htracked
    rw [List.append_assoc] at hrest
    refine ⟨phases₂, hrest, fun h => hfresh (h.advances hadvances), fun hone h => ?_⟩
    obtain ⟨hhead, htail⟩ := List.forall_mem_cons.1 hone
    exact hlatest htail (h.advances hadvances (htracked.holding_unique hhead))

include hwork in
/-- When all jobs are done, every change has been followed by its publication. -/
theorem settled_of_finished {w : World} {moves : List (Move J)}
    (hfinished : (Running.after work { world := w } moves).finished = true) :
    Settled work (Running.turns work { world := w } moves) ∧
      (Running.after work { world := w } moves).inFlight work = [] := by
  obtain ⟨phases, htracked, -, -⟩ := (tracked_start w).run hwork moves
  -- A job that is done owes nothing and holds nothing.
  have hfree := htracked.free_of_finished hfinished
  refine ⟨fun k => htracked.settled k (hfree k), List.eq_nil_iff_forall_not_mem.2 ?_⟩
  intro k hk
  obtain ⟨groups, hgroups⟩ := htracked.mem_inFlight.1 hk
  rw [hfree k] at hgroups
  cases hgroups

include hwork in
/-- With every change followed by its publication and none under way, the groups of the
    inventory have been published, and were published last if there was never more than one
    publication under way. -/
theorem published_of_settled {w : World} (hinventory : w.inventory = .empty)
    (hpublished : w.published = []) {moves : List (Move J)}
    (hsettled : Settled work (Running.turns work { world := w } moves))
    (hidle : (Running.after work { world := w } moves).inFlight work = []) :
    let r := Running.after work { world := w } moves
    r.world.inventory.scrapeGroups ∈ [] :: r.world.published ∧
      ((∀ t ∈ Running.turns work { world := w } moves,
          ((t.after work).inFlight work).length ≤ 1) →
        r.world.published.headD [] = r.world.inventory.scrapeGroups) := by
  intro r
  obtain ⟨phases, htracked, hfresh, hlatest⟩ := (tracked_start w).run hwork moves
  -- Nobody owes, and nobody holds anything.
  have howes : ∀ k, phases k ≠ .free true := fun k hk => hsettled k (htracked.owes k hk)
  have hholding : ∀ k groups, phases k ≠ .holding groups := by
    intro k groups hk
    have hmem := htracked.mem_inFlight.2 ⟨groups, hk⟩
    rw [hidle] at hmem
    cases hmem
  have hstart : w.published.headD [] = w.inventory.scrapeGroups := by
    rw [hinventory, hpublished]
    rfl
  constructor
  · -- Empty groups count as published before the first publication.
    have hmem : w.inventory.scrapeGroups ∈ [] :: w.published := by
      rw [← hstart, hpublished]
      exact List.mem_cons_self
    rcases hfresh (.inr (.inr hmem)) with ⟨k, hk⟩ | ⟨k, hk⟩ | hmem
    · exact absurd hk (howes k)
    · exact absurd hk (hholding k _)
    · exact hmem
  · intro hone
    have hbefore : Latest (fun _ => .free false) w := by
      refine .inr ⟨?_, .inr hstart⟩
      intro k groups hk
      cases hk
    rcases hlatest hone hbefore with ⟨k, hk⟩ | ⟨-, ⟨k, groups, hk⟩ | hlast⟩
    · exact absurd hk (howes k)
    · exact absurd hk (hholding k groups)
    · exact hlast

end

end ServiceRegistry.World
