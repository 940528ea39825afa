/-
  ServiceRegistry.Proofs.World.Schedule

  A registry at work on several jobs at once. A schedule is a list of moves: a job begins, a
  job takes its next step, or the surroundings change. The moves may come in any order, so
  schedules are all interleavings of the steps of all jobs, with the clock read and the
  fleet answering differently at every step; jobs done one after the other are among them.

  What the steps of each job may do to the inventory is a property of the job (`Obedient`),
  and by `Turn.inventory_cases` every move of every schedule performs at most one event.
-/
import ServiceRegistry.Proofs.World.Steps

namespace ServiceRegistry.World

open Inventory (Event Moment)

/-! ## Schedules -/

/-- The world, and all jobs begun so far with what is left of them. -/
structure Running (J : Type) where
  world : World
  jobs : List (J × Work Unit) := []

/-- What may happen next. -/
inductive Move (J : Type)
  /-- A job is begun. -/
  | start (job : J)
  /-- The job at a position takes its next step, if it has one. -/
  | proceed (position : Nat)
  /-- The surroundings change. -/
  | drift (clock unixTime : UInt64) (fleet : Fleet)

variable {J : Type} (work : J → Work Unit)

/-- The state after a move. -/
def Running.perform (r : Running J) : Move J → Running J
  | .start job => { r with jobs := r.jobs ++ [(job, work job)] }
  | .proceed position =>
    match r.jobs[position]? with
    | some (job, .step act next) =>
      { world := act r.world, jobs := r.jobs.set position (job, next r.world) }
    | _ => r
  | .drift clock unixTime fleet => { r with world := { r.world with clock, unixTime, fleet } }

/-- A move as it is made: with the state it meets. -/
structure Turn (J : Type) where
  met : Running J
  move : Move J

namespace Turn

/-- The state after the move. -/
def after (t : Turn J) : Running J := t.met.perform work t.move

/-- The job of which the move is a step. -/
def job? (t : Turn J) : Option J :=
  match t.move with
  | .proceed position => (t.met.jobs[position]?).map (·.1)
  | _ => none

end Turn

namespace Running

/-- The state after a schedule. -/
def after (r : Running J) : List (Move J) → Running J
  | [] => r
  | m :: ms => after ((Turn.mk r m).after work) ms

/-- The moves of a schedule as they are made. -/
def turns (r : Running J) : List (Move J) → List (Turn J)
  | [] => []
  | m :: ms => ⟨r, m⟩ :: turns ((Turn.mk r m).after work) ms

end Running

/-! ## What moves do to the inventory -/

/-- A move is the step of a job, or it leaves the inventory, the publications and what is left
    of the jobs alone, except that it may begin one. -/
theorem Turn.after_cases (t : Turn J) :
    (∃ position job act next, t.move = .proceed position ∧
      t.met.jobs[position]? = some (job, .step act next) ∧
      t.after work = ⟨act t.met.world, t.met.jobs.set position (job, next t.met.world)⟩) ∨
    (t.after work).world.inventory = t.met.world.inventory ∧
      (t.after work).world.published = t.met.world.published ∧
      ((t.after work).jobs = t.met.jobs ∨
        ∃ job, (t.after work).jobs = t.met.jobs ++ [(job, work job)]) := by
  obtain ⟨r, move⟩ := t
  cases move with
  | start job => exact .inr ⟨rfl, rfl, .inr ⟨job, rfl⟩⟩
  | proceed position =>
    cases hjob : r.jobs[position]? with
    | none =>
      -- No job is at the position.
      have hafter : (Turn.mk r (.proceed position)).after work = r := by
        simp only [Turn.after, Running.perform, hjob]
      exact .inr ⟨by rw [hafter], by rw [hafter], .inl (by rw [hafter])⟩
    | some x =>
      obtain ⟨job, remaining⟩ := x
      cases remaining with
      | done a =>
        -- The job has no step left.
        have hafter : (Turn.mk r (.proceed position)).after work = r := by
          simp only [Turn.after, Running.perform, hjob]
        exact .inr ⟨by rw [hafter], by rw [hafter], .inl (by rw [hafter])⟩
      | step act next =>
        refine .inl ⟨position, job, act, next, rfl, hjob, ?_⟩
        simp only [Turn.after, Running.perform, hjob]
  | drift clock unixTime fleet => exact .inr ⟨rfl, rfl, .inl rfl⟩

section

variable (policy : Policy) (fits : J → Event → Prop)

/-- All that is left of the jobs performs only events that fit them. -/
def Running.Obedient (r : Running J) : Prop := ∀ x ∈ r.jobs, Steps policy (fits x.1) x.2

variable {policy fits} {t : Turn J}

theorem Running.Obedient.after (hwork : ∀ job, Steps policy (fits job) (work job))
    (h : t.met.Obedient policy fits) : (t.after work).Obedient policy fits := by
  rcases t.after_cases work with ⟨position, job, act, next, -, hjob, hafter⟩ | ⟨-, -, hjobs⟩
  · -- What is left of the job after its step obeys because the whole of it did.
    intro x hx
    rw [hafter] at hx
    rcases List.mem_or_eq_of_mem_set hx with hx | rfl
    · exact h x hx
    · exact (h (job, .step act next) (List.mem_of_getElem? hjob) t.met.world).2
  · intro x hx
    rcases hjobs with hjobs | ⟨job, hjobs⟩
    · rw [hjobs] at hx
      exact h x hx
    · rw [hjobs] at hx
      rcases List.mem_append.1 hx with hx | hx
      · exact h x hx
      · rw [List.mem_singleton.1 hx]
        exact hwork job

/-- A move leaves the inventory alone, or is the step of a job and performs an event that
    fits it. -/
theorem Turn.inventory_cases (h : t.met.Obedient policy fits) :
    (t.after work).world.inventory = t.met.world.inventory ∨
      ∃ job e, t.job? = some job ∧ fits job e ∧
        (t.after work).world.inventory = (Moment.mk e t.met.world.inventory).after policy := by
  rcases t.after_cases work with ⟨position, job, act, next, hmove, hjob, hafter⟩ | ⟨heq, -, -⟩
  · -- The step is one of a job that obeys.
    rw [hafter]
    rcases (h (job, .step act next) (List.mem_of_getElem? hjob) t.met.world).1 with
      heq | ⟨e, he, heq⟩
    · exact .inl heq
    · refine .inr ⟨job, e, ?_, he, heq⟩
      simp only [Turn.job?, hmove, hjob, Option.map_some]
  · exact .inl heq

end

end ServiceRegistry.World
