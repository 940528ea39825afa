/-
  ServiceRegistry.Proofs.World.Serial

  Activities at work together, and what it takes for their answers to be those of a serial
  order. Their steps are taken in any order while clocks and fleet drift; in a serial order
  each is carried out at once, at one reading of the clock.

  Activities that are all atomic have the answers of a serial order, the one of their
  decisive steps (`exists_serial`). The clock reading of each is one that it took itself.
-/
import Mathlib.Data.List.Nodup
import ServiceRegistry.Proofs.World.Alone
import ServiceRegistry.Proofs.World.Atomic

namespace ServiceRegistry.World

variable {α : Type}

/-! ## Together and one by one -/

/-- The world, and what is left of some activities. -/
structure Crew (α : Type) where
  world : World
  tasks : List (Work α)

/-- What may happen next. -/
inductive Tick
  /-- The activity at a position takes its next step, if it has one. -/
  | proceed (position : Nat)
  /-- The surroundings change. -/
  | drift (d : Drift)

namespace Crew

/-- The state after a tick. -/
def perform (s : Crew α) : Tick → Crew α
  | .proceed k =>
    match s.tasks[k]? with
    | some (.step act next) => ⟨act s.world, s.tasks.set k (next s.world)⟩
    | _ => s
  | .drift d => { s with world := d.after s.world }

/-- The state after some ticks. -/
def after (s : Crew α) : List Tick → Crew α
  | [] => s
  | t :: ticks => (s.perform t).after ticks

/-- The clock at every step that an activity takes, with the position of the activity. -/
def readings (s : Crew α) : List Tick → List (Nat × UInt64)
  | [] => []
  | .drift d :: ticks => (s.perform (.drift d)).readings ticks
  | .proceed k :: ticks =>
    match s.tasks[k]? with
    | some (.step _ _) => (k, s.world.clock) :: (s.perform (.proceed k)).readings ticks
    | _ => (s.perform (.proceed k)).readings ticks

/-- The answers, if all activities are done. -/
def answers? (s : Crew α) : Option (List α) := s.tasks.mapM (·.value?)

end Crew

/-- Carries out activities one by one, each at a reading of the clock. Gives the answers with
    the positions of their activities, and the world at the end. -/
def serially (tasks : List (Work α)) : List (Nat × UInt64) → World → List (Nat × α) × World
  | [], w => ([], w)
  | (k, now) :: order, w =>
    match tasks[k]? with
    | none => serially tasks order w
    | some x =>
      let r := x.run { w with clock := now }
      let rest := serially tasks order r.2
      ((k, r.1) :: rest.1, rest.2)

/-! ## Serial orders -/

section

variable {tasks : List (Work α)} {w : World} {order : List (Nat × UInt64)}

theorem serially_append (order more : List (Nat × UInt64)) (w : World) :
    serially tasks (order ++ more) w =
      ((serially tasks order w).1 ++ (serially tasks more (serially tasks order w).2).1,
        (serially tasks more (serially tasks order w).2).2) := by
  -- Along the first order, from the world that the turns taken so far have left.
  induction order generalizing w with
  | nil => rfl
  | cons e order ih =>
    obtain ⟨k, now⟩ := e
    cases hk : tasks[k]? with
    | none => simp only [List.cons_append, serially, hk, ih]
    | some x => simp only [List.cons_append, serially, hk, ih]

theorem serially_singleton {k : Nat} {x : Work α} (hk : tasks[k]? = some x) (now : UInt64)
    (w : World) : serially tasks [(k, now)] w =
      ([(k, (x.run { w with clock := now }).1)], (x.run { w with clock := now }).2) := by
  simp only [serially, hk]

theorem mem_order_of_mem_serially {k : Nat} {a : α} (h : (k, a) ∈ (serially tasks order w).1) :
    k ∈ order.map (·.1) ∧ k < tasks.length := by
  induction order generalizing w with
  | nil => cases h
  | cons e order ih =>
    obtain ⟨j, now⟩ := e
    cases hj : tasks[j]? with
    | none =>
      -- Nobody has this turn.
      simp only [serially, hj] at h
      exact (ih h).imp_left (List.mem_cons_of_mem _)
    | some x =>
      simp only [serially, hj] at h
      rcases List.mem_cons.1 h with heq | h
      · rw [(Prod.mk.inj heq).1]
        exact ⟨List.mem_cons_self, (List.getElem?_eq_some_iff.1 hj).1⟩
      · exact (ih h).imp_left (List.mem_cons_of_mem _)

/-- Activities that are done from the start can be put anywhere. -/
theorem serially_of_done (h : ∀ e ∈ order, ∃ a, tasks[e.1]? = some (.done a)) :
    (serially tasks order w).2.inventory = w.inventory ∧
      ∀ k ∈ order.map (·.1), ∀ a, tasks[k]? = some (.done a) →
        (k, a) ∈ (serially tasks order w).1 := by
  induction order generalizing w with
  | nil => exact ⟨rfl, List.forall_mem_nil _⟩
  | cons e order ih =>
    obtain ⟨⟨b, hb⟩, hrest⟩ := List.forall_mem_cons.1 h
    obtain ⟨j, now⟩ := e
    obtain ⟨hinventory, hmem⟩ := ih (w := { w with clock := now }) hrest
    dsimp only at hb
    simp only [serially, hb, Activity.run_done]
    refine ⟨hinventory, List.forall_mem_cons.2 ⟨fun a ha => ?_, fun k hk a ha => ?_⟩⟩
    · rw [hb] at ha
      rw [Activity.done.inj (Option.some.inj ha)]
      exact List.mem_cons_self
    · exact List.mem_cons_of_mem _ (hmem k hk a ha)

/-! ## The order of decisive steps -/

/-- A serial order of the activities that have decided: it has led to the same answers and
    the same inventory, at readings of the clock that are in the log. -/
structure Explained (tasks : List (Work α)) (w : World) (log order : List (Nat × UInt64))
    (stages : Nat → Stage α) (s : Crew α) : Prop where
  follows : ∀ k x, s.tasks[k]? = some x → ∃ f x₀, tasks[k]? = some x₀ ∧ Atomic f x₀ ∧
    Follows (Enters f) (Ends f) (stages k) x
  untouched : ∀ k, stages k = .before → s.tasks[k]? = tasks[k]?
  timed : ∀ k now, stages k = .timed now → (k, now) ∈ log
  decided : ∀ k a, stages k = .decided a → (k, a) ∈ (serially tasks order w).1
  ordered : ∀ k ∈ order.map (·.1), ∃ a, stages k = .decided a
  nodup : (order.map (·.1)).Nodup
  logged : order ⊆ log
  inventory : (serially tasks order w).2.inventory = s.world.inventory

variable {log : List (Nat × UInt64)} {stages : Nat → Stage α} {s : Crew α}

theorem explained_start (hatomic : ∀ x ∈ tasks, ∃ f, Atomic f x) (w : World) :
    Explained tasks w [] [] (fun _ => .before) ⟨w, tasks⟩ where
  follows := by
    intro k x hx
    obtain ⟨f, hf⟩ := hatomic x (List.mem_of_getElem? hx)
    exact ⟨f, x, hx, hf, hf⟩
  untouched := fun _ _ => rfl
  timed := by
    intro k now hk
    cases hk
  decided := by
    intro k a hk
    cases hk
  ordered := List.forall_mem_nil _
  nodup := List.nodup_nil
  logged := List.nil_subset _
  inventory := rfl

/-- Changes of the surroundings, and more readings, change nothing. -/
theorem Explained.mono (h : Explained tasks w log order stages s) {log' : List (Nat × UInt64)}
    (hlog : log ⊆ log') {w' : World} (hw' : w'.inventory = s.world.inventory) :
    Explained tasks w log' order stages ⟨w', s.tasks⟩ where
  follows := h.follows
  untouched := h.untouched
  timed := fun k now hk => hlog (h.timed k now hk)
  decided := h.decided
  ordered := h.ordered
  nodup := h.nodup
  logged := fun _ he => hlog (h.logged he)
  inventory := h.inventory.trans hw'.symm

section

variable {k : Nat} {x x₀ : Work α} {f : UInt64 → Inventory → α × Inventory} {g : Stage α}

/-- The activity at `k` goes on with `x` and is at the stage `g`. -/
theorem Explained.follows_set (h : Explained tasks w log order stages s)
    (hx₀ : tasks[k]? = some x₀) (hatomic : Atomic f x₀)
    (hx : Follows (Enters f) (Ends f) g x) (j : Nat) (y : Work α)
    (hy : (s.tasks.set k x)[j]? = some y) : ∃ f x₀, tasks[j]? = some x₀ ∧ Atomic f x₀ ∧
      Follows (Enters f) (Ends f) (Function.update stages k g j) y :=
  forall_set_update (p := fun j y g => ∃ f x₀, tasks[j]? = some x₀ ∧ Atomic f x₀ ∧
    Follows (Enters f) (Ends f) g y) h.follows ⟨f, x₀, hx₀, hatomic, hx⟩ j y hy

theorem Explained.untouched_set (h : Explained tasks w log order stages s) (x : Work α)
    (hg : g ≠ .before) : ∀ j, Function.update stages k g j = .before →
      (s.tasks.set k x)[j]? = tasks[j]? := by
  refine (Function.forall_update_iff stages
    fun j g => g = .before → (s.tasks.set k x)[j]? = tasks[j]?).2 ⟨fun hbefore => ?_, ?_⟩
  · exact absurd hbefore hg
  · intro j hj hbefore
    rw [List.getElem?_set_ne (Ne.symm hj)]
    exact h.untouched j hbefore

theorem Explained.timed_update (h : Explained tasks w log order stages s)
    (hg : ∀ now, g = .timed now → (k, now) ∈ log) :
    ∀ j now, Function.update stages k g j = .timed now → (j, now) ∈ log :=
  (Function.forall_update_iff stages fun j g => ∀ now, g = .timed now → (j, now) ∈ log).2
    ⟨hg, fun j _ => h.timed j⟩

/-- Who has decided before keeps the answer in a longer order. -/
theorem Explained.decided_update (h : Explained tasks w log order stages s)
    (more : List (Nat × UInt64))
    (hg : ∀ a, g = .decided a → (k, a) ∈ (serially tasks (order ++ more) w).1) :
    ∀ j a, Function.update stages k g j = .decided a →
      (j, a) ∈ (serially tasks (order ++ more) w).1 := by
  refine (Function.forall_update_iff stages
    fun j g => ∀ a, g = .decided a → (j, a) ∈ (serially tasks (order ++ more) w).1).2 ⟨hg, ?_⟩
  intro j _ a hj
  rw [serially_append]
  exact List.mem_append_left _ (h.decided j a hj)

/-- A step that decides nothing: the clock is read, or the decision was made before. -/
theorem Explained.onward (h : Explained tasks w log order stages s)
    (hx₀ : tasks[k]? = some x₀) (hatomic : Atomic f x₀)
    (hx : Follows (Enters f) (Ends f) g x) (hbefore : g ≠ .before)
    (htimed : ∀ now, g = .timed now → (k, now) ∈ log)
    (hdecided : ∀ a, g = .decided a ↔ stages k = .decided a) {w' : World}
    (hw' : w'.inventory = s.world.inventory) :
    Explained tasks w log order (Function.update stages k g) ⟨w', s.tasks.set k x⟩ where
  follows := h.follows_set hx₀ hatomic hx
  untouched := h.untouched_set x hbefore
  timed := h.timed_update htimed
  decided := by
    -- Nobody is added to the order.
    have hkept := h.decided_update (k := k) (g := g) []
    rw [List.append_nil] at hkept
    exact hkept fun a ha => h.decided k a ((hdecided a).1 ha)
  ordered := by
    refine (Function.forall_update_iff stages
      fun j g => j ∈ order.map (·.1) → ∃ a, g = .decided a).2 ⟨fun hk => ?_, fun j _ => h.ordered j⟩
    obtain ⟨a, ha⟩ := h.ordered k hk
    exact ⟨a, (hdecided a).2 ha⟩
  nodup := h.nodup
  logged := h.logged
  inventory := h.inventory.trans hw'.symm

/-- The decisive step: in the serial order it is the activity's turn. -/
theorem Explained.decide (h : Explained tasks w log order stages s)
    (hx₀ : tasks[k]? = some x₀) (hatomic : Atomic f x₀) {now : UInt64} (hlog : (k, now) ∈ log)
    (hx : Follows (Enters f) (Ends f) (.decided (f now s.world.inventory).1) x)
    (hundecided : ∀ a, stages k ≠ .decided a) {w' : World}
    (hw' : w'.inventory = (f now s.world.inventory).2) :
    Explained tasks w log (order ++ [(k, now)])
      (Function.update stages k (.decided (f now s.world.inventory).1))
      ⟨w', s.tasks.set k x⟩ := by
  -- Its turn comes when the inventory is the one that its decisive step has met.
  obtain ⟨hanswer, hinventory⟩ :
      (x₀.run { (serially tasks order w).2 with clock := now }).1
          = (f now s.world.inventory).1 ∧
        (x₀.run { (serially tasks order w).2 with clock := now }).2.inventory
          = (f now s.world.inventory).2 := by
    rw [← h.inventory]
    exact hatomic.run _
  have hrun : serially tasks (order ++ [(k, now)]) w =
      ((serially tasks order w).1 ++ [(k, (f now s.world.inventory).1)],
        (x₀.run { (serially tasks order w).2 with clock := now }).2) := by
    rw [serially_append, serially_singleton hx₀, hanswer]
  have hfresh : k ∉ order.map (·.1) := by
    intro hmem
    obtain ⟨a, ha⟩ := h.ordered k hmem
    exact hundecided a ha
  refine ⟨h.follows_set hx₀ hatomic hx, h.untouched_set x nofun, h.timed_update nofun,
    h.decided_update _ ?_, ?_, ?_, ?_, ?_⟩
  · rintro a ⟨⟩
    rw [hrun]
    exact List.mem_append_right _ (List.mem_singleton.2 rfl)
  · refine (Function.forall_update_iff stages fun j g =>
      j ∈ (order ++ [(k, now)]).map (·.1) → ∃ a, g = .decided a).2 ⟨fun _ => ⟨_, rfl⟩, ?_⟩
    intro j hj hmem
    rw [List.map_append, List.mem_append] at hmem
    rcases hmem with hmem | hmem
    · exact h.ordered j hmem
    · exact absurd (List.mem_singleton.1 hmem) hj
  · -- Nobody decides twice.
    rw [List.map_append, List.map_cons, List.map_nil]
    exact h.nodup.append (List.nodup_singleton k) (List.disjoint_singleton.2 hfresh)
  · refine List.append_subset.2 ⟨h.logged, ?_⟩
    exact List.cons_subset.2 ⟨hlog, List.nil_subset _⟩
  · rw [hrun]
    exact hinventory.trans hw'.symm

end

/-! ## Whole schedules -/

theorem readings_cons (s : Crew α) (t : Tick) (ticks : List Tick) :
    s.readings (t :: ticks) = s.readings [t] ++ (s.perform t).readings ticks := by
  cases t with
  | drift d => rfl
  | proceed k =>
    cases hk : s.tasks[k]? with
    | none => simp only [Crew.readings, hk, List.nil_append]
    | some x => cases x <;> simp only [Crew.readings, hk, List.nil_append, List.cons_append]

theorem length_after (s : Crew α) (ticks : List Tick) :
    (s.after ticks).tasks.length = s.tasks.length := by
  induction ticks generalizing s with
  | nil => rfl
  | cons t ticks ih =>
    have hperform : (s.perform t).tasks.length = s.tasks.length := by
      cases t with
      | drift d => rfl
      | proceed k =>
        unfold Crew.perform
        dsimp only
        split
        · exact List.length_set ..
        · rfl
    exact (ih _).trans hperform

/-- A tick leaves things explained: who decides is next in the order. -/
theorem Explained.perform (h : Explained tasks w log order stages s) (t : Tick) :
    ∃ order' stages', Explained tasks w (log ++ s.readings [t]) order' stages' (s.perform t) := by
  have hlog : log ⊆ log ++ s.readings [t] := List.subset_append_left _ _
  cases t with
  | drift d => exact ⟨order, stages, h.mono hlog rfl⟩
  | proceed k =>
    cases hk : s.tasks[k]? with
    | none =>
      have hsame : s.perform (.proceed k) = s := by simp only [Crew.perform, hk]
      rw [hsame]
      exact ⟨order, stages, h.mono hlog rfl⟩
    | some x =>
      cases x with
      | done a =>
        have hsame : s.perform (.proceed k) = s := by simp only [Crew.perform, hk]
        rw [hsame]
        exact ⟨order, stages, h.mono hlog rfl⟩
      | step act next =>
        have hafter : s.perform (.proceed k) = ⟨act s.world, s.tasks.set k (next s.world)⟩ := by
          simp only [Crew.perform, hk]
        have hnow : (k, s.world.clock) ∈ log ++ s.readings [.proceed k] := by
          simp only [Crew.readings, hk]
          exact List.mem_append_right _ List.mem_cons_self
        obtain ⟨f, x₀, hx₀, hatomic, hfollows⟩ := h.follows k _ hk
        obtain ⟨g, hrule, hnext⟩ := hfollows s.world
        have hlogged := h.mono hlog rfl
        rw [hafter]
        -- The stage that the activity is at leaves only some of the rules for its step.
        generalize hstage : stages k = q at hrule
        cases hrule with
        | time hinventory =>
          refine ⟨order, _, hlogged.onward hx₀ hatomic hnext nofun ?_ ?_ hinventory⟩
          · rintro now ⟨⟩
            exact hnow
          · intro a
            rw [hstage]
            exact ⟨nofun, nofun⟩
        | decide hinventory =>
          refine ⟨_, _, hlogged.decide hx₀ hatomic (hlog (h.timed k _ hstage)) hnext ?_
            hinventory⟩
          rw [hstage]
          exact fun _ => nofun
        | atOnce hinventory =>
          refine ⟨_, _, hlogged.decide hx₀ hatomic hnow hnext ?_ hinventory⟩
          rw [hstage]
          exact fun _ => nofun
        | rest hinventory =>
          refine ⟨order, _, hlogged.onward hx₀ hatomic hnext nofun nofun ?_ hinventory⟩
          intro a
          rw [hstage]

theorem Explained.after (h : Explained tasks w log order stages s) (ticks : List Tick) :
    ∃ order' stages', Explained tasks w (log ++ s.readings ticks) order' stages'
      (s.after ticks) := by
  induction ticks generalizing log order stages s with
  | nil =>
    refine ⟨order, stages, ?_⟩
    rw [Crew.readings, List.append_nil]
    exact h
  | cons t ticks ih =>
    -- The log grows by the reading of the first tick before the others go on with it.
    obtain ⟨order₁, stages₁, h₁⟩ := h.perform t
    rw [readings_cons, ← List.append_assoc]
    exact ih h₁

/-! ## All done -/

theorem eq_map_done_of_mapM {xs : List (Work α)} {answers : List α}
    (h : xs.mapM (·.value?) = some answers) : xs = answers.map .done := by
  induction xs generalizing answers with
  | nil =>
    cases h
    rfl
  | cons x xs ih =>
    rw [List.mapM_cons] at h
    obtain ⟨a, ha, h⟩ := Option.bind_eq_some_iff.1 h
    obtain ⟨as, has, h⟩ := Option.bind_eq_some_iff.1 h
    obtain rfl := Option.some.inj h
    rw [Activity.value?_eq_some.1 ha, ih has, List.map_cons]

theorem getElem?_of_answers? {answers : List α} (h : s.answers? = some answers) (k : Nat) :
    s.tasks[k]? = answers[k]?.map .done := by
  rw [eq_map_done_of_mapM h, List.getElem?_map]

/-- Each activity has decided on its answer, or it was done from the start. -/
theorem Explained.answered (h : Explained tasks w log order stages s) {answers : List α}
    (hanswers : s.answers? = some answers) {k : Nat} {a : α} (hk : answers[k]? = some a) :
    stages k = .decided a ∨ stages k = .before ∧ tasks[k]? = some (.done a) := by
  have htask : s.tasks[k]? = some (.done a) := by
    rw [getElem?_of_answers? hanswers, hk, Option.map_some]
  obtain ⟨f, x₀, -, -, hends⟩ := h.follows k _ htask
  have hends : Ends f a (stages k) := hends
  cases hstage : stages k with
  | before =>
    refine .inr ⟨rfl, ?_⟩
    rw [← h.untouched k hstage, htask]
  | timed now =>
    rw [hstage] at hends
    exact hends.elim
  | decided b =>
    rw [hstage] at hends
    obtain rfl : b = a := hends
    exact .inl rfl

/-- The positions that an order leaves out, at any reading of the clock. -/
def leftOut (order : List (Nat × UInt64)) (n : Nat) : List (Nat × UInt64) :=
  ((List.range n).filter (· ∉ order.map (·.1))).map fun k => (k, 0)

theorem mem_map_leftOut {n k : Nat} :
    k ∈ (leftOut order n).map (·.1) ↔ k < n ∧ k ∉ order.map (·.1) := by
  simp only [leftOut, List.map_map, Function.comp_def, List.map_id', List.mem_filter,
    List.mem_range, decide_eq_true_eq]

theorem perm_append_leftOut {n : Nat} (hnodup : (order.map (·.1)).Nodup)
    (hlt : ∀ k ∈ order.map (·.1), k < n) :
    ((order ++ leftOut order n).map (·.1)).Perm (List.range n) := by
  have hrest : ((leftOut order n).map (·.1)).Nodup := by
    simp only [leftOut, List.map_map, Function.comp_def, List.map_id']
    exact List.nodup_range.filter _
  have hall : ((order ++ leftOut order n).map (·.1)).Nodup := by
    rw [List.map_append]
    exact hnodup.append hrest fun k hk hleft => (mem_map_leftOut.1 hleft).2 hk
  refine (List.perm_ext_iff_of_nodup hall List.nodup_range).2 fun k => ?_
  rw [List.map_append, List.mem_append, mem_map_leftOut, List.mem_range]
  constructor
  · rintro (hk | ⟨hk, -⟩)
    · exact hlt k hk
    · exact hk
  · intro hk
    by_cases horder : k ∈ order.map (·.1)
    · exact .inl horder
    · exact .inr ⟨hk, horder⟩

/-- Activities that are atomic give the answers of a serial order, whatever order their steps
    are taken in, and leave the same inventory. In the serial order each of them is carried
    out at a reading of the clock that it took, unless it was done from the start. -/
theorem exists_serial (hatomic : ∀ x ∈ tasks, ∃ f, Atomic f x) (w : World) (ticks : List Tick)
    {answers : List α} (hanswers : (Crew.after ⟨w, tasks⟩ ticks).answers? = some answers) :
    ∃ order : List (Nat × UInt64), (order.map (·.1)).Perm (List.range tasks.length) ∧
      (∀ e ∈ order, e ∈ Crew.readings ⟨w, tasks⟩ ticks ∨ ∃ a, tasks[e.1]? = some (.done a)) ∧
      (∀ k a, answers[k]? = some a → (k, a) ∈ (serially tasks order w).1) ∧
      (serially tasks order w).2.inventory
        = (Crew.after ⟨w, tasks⟩ ticks).world.inventory := by
  obtain ⟨order, stages, h⟩ := (explained_start hatomic w).after ticks
  rw [List.nil_append] at h
  have hlt : ∀ k ∈ order.map (·.1), k < tasks.length := by
    intro k hk
    obtain ⟨a, ha⟩ := h.ordered k hk
    exact (mem_order_of_mem_serially (h.decided k a ha)).2
  -- Those that have decided nothing come at the end of the order.
  have hstart : ∀ e ∈ leftOut order tasks.length, ∃ a, tasks[e.1]? = some (.done a) := by
    intro e he
    obtain ⟨hk, hfresh⟩ := mem_map_leftOut.1 (List.mem_map_of_mem he)
    have hlength : e.1 < answers.length := by
      rw [← List.length_map, ← eq_map_done_of_mapM hanswers, length_after]
      exact hk
    rcases h.answered hanswers (List.getElem?_eq_getElem hlength) with hdecided | ⟨-, hdone⟩
    · exact absurd (mem_order_of_mem_serially (h.decided _ _ hdecided)).1 hfresh
    · exact ⟨_, hdone⟩
  obtain ⟨hsame, hanswered⟩ := serially_of_done (w := (serially tasks order w).2) hstart
  refine ⟨order ++ leftOut order tasks.length, perm_append_leftOut h.nodup hlt, ?_, ?_, ?_⟩
  · intro e he
    rcases List.mem_append.1 he with he | he
    · exact .inl (h.logged he)
    · exact .inr (hstart e he)
  · intro k a hk
    rw [serially_append]
    rcases h.answered hanswers hk with hdecided | ⟨hbefore, htask⟩
    · exact List.mem_append_left _ (h.decided k a hdecided)
    · have hfresh : k ∉ order.map (·.1) := by
        intro horder
        obtain ⟨b, hb⟩ := h.ordered k horder
        rw [hbefore] at hb
        cases hb
      have hlength : k < tasks.length := (List.getElem?_eq_some_iff.1 htask).1
      exact List.mem_append_right _ (hanswered k (mem_map_leftOut.2 ⟨hlength, hfresh⟩) a htask)
  · rw [serially_append]
    exact hsame.trans h.inventory

end

end ServiceRegistry.World
