/-
  ServiceRegistry.Proofs.Server.Jobs

  What a registry works on, requests and rounds of supervision, and the events that each
  of them may perform on the inventory. Only a request to register performs registrations,
  all of its own service; no job performs `retire`, so nothing is hidden without being
  swept at once.
-/
import ServiceRegistry.Proofs.World.Schedule
import ServiceRegistry.Server.Handlers
import ServiceRegistry.Supervision.Pass

namespace ServiceRegistry.Server

open Inventory (Event)
open Message World

/-! ## Jobs -/

/-- A request, with the address it comes from where that matters, or a pass. -/
inductive Job
  | register (peer : Option Net.Ip) (r : RegisterRequest)
  | deregister (r : DeregisterRequest)
  | list (r : ListRequest)
  | target (r : TargetRequest)
  | lookup (r : LookupRequest)
  | shutdown (r : ShutdownRequest)
  | processShutdown (peer : Option Net.Ip) (r : ProcessShutdownRequest)
  | pass

/-- An activity without its value. -/
def silently {α : Type} (x : Work α) : Work Unit := do
  let _ ← x
  pure ()

/-- The activity of a job. -/
def Job.work (cfg : Settings) : Job → Work Unit
  | register peer r => silently (Server.register cfg peer r)
  | deregister r => silently (Server.deregister cfg r)
  | list r => silently (Server.list r)
  | target r => silently (Server.target r)
  | lookup r => silently (Server.lookup r)
  | shutdown r => silently (Server.shutdown r)
  | processShutdown peer r => silently (Server.processShutdown cfg peer r)
  | pass => silently (Supervision.pass cfg)

/-- The events that a job may perform. -/
def Job.Fits (job : Job) (e : Event) : Prop :=
  match job, e.action with
  | register _ r, .enrol service _ _ => service = r.service
  | deregister r, .withdraw id => id = r.instanceId
  | processShutdown _ r, .withdrawPorts _ ports => ports = r.ports
  | pass, .sweep => True
  | pass, .noteProbe _ _ => True
  | _, _ => False

section

variable {job : Job} {e : Event}

theorem Job.Fits.register_of_enrol (h : job.Fits e) {service : Service} {endpoint : Endpoint}
    {capabilities : List Capability} (haction : e.action = .enrol service endpoint capabilities) :
    ∃ peer r, job = register peer r ∧ service = r.service := by
  cases job with
  | register peer r =>
    simp only [Job.Fits, haction] at h
    exact ⟨peer, r, rfl, h⟩
  | _ => simp only [Job.Fits, haction] at h

/-- No job hides instances without sweeping. -/
theorem Job.Fits.ne_retire (h : job.Fits e) (id : InstanceId) : e.action ≠ .retire id := by
  intro haction
  cases job <;> simp only [Job.Fits, haction] at h

end

/-! ## The steps of requests -/

section

variable {cfg : Settings} {P : Event → Prop}

theorem steps_silently {α : Type} {policy : Policy} {x : Work α} (h : Steps policy P x) :
    Steps policy P (silently x) :=
  steps_bind h fun _ => steps_pure ()

theorem steps_enrolAll {policy : Policy} {service : Service}
    (h : ∀ now endpoint capabilities, P ⟨now, .enrol service endpoint capabilities⟩)
    (addresses : List (Endpoint × List Capability)) :
    Steps policy P (enrolAll service addresses) := by
  -- Along the addresses, each registered in a step of its own until one is refused.
  induction addresses with
  | nil => exact steps_pure _
  | cons a rest ih =>
    refine steps_bind (steps_enrol fun now => h now a.1 a.2) fun result => ?_
    cases result with
    | error e => exact steps_pure _
    | ok r =>
      refine steps_bind ih fun results => ?_
      cases results with
      | error e => exact steps_pure _
      | ok rs => exact steps_pure _

theorem steps_register (peer : Option Net.Ip) {r : RegisterRequest}
    (h : ∀ now endpoint capabilities, P ⟨now, .enrol r.service endpoint capabilities⟩) :
    Steps cfg.policy P (register cfg peer r) := by
  unfold register
  -- Missing address, missing name, a host that cannot be determined: no step at all.
  split
  · exact steps_pure _
  · split
    · exact steps_pure _
    · split
      · exact steps_pure _
      · refine steps_bind (steps_enrolAll h _) fun results => ?_
        cases results with
        | error e => exact steps_pure _
        | ok rs =>
          dsimp only
          split
          · refine steps_bind (steps_count _) fun _ => ?_
            exact steps_bind (steps_refresh cfg) fun _ => steps_pure _
          · exact steps_pure _

theorem steps_deregister {r : DeregisterRequest}
    (h : ∀ now, P ⟨now, .withdraw r.instanceId⟩) :
    Steps cfg.policy P (deregister cfg r) := by
  refine steps_bind (steps_withdraw h) fun result => ?_
  cases result with
  | error e => exact steps_pure _
  | ok evicted =>
    refine steps_bind (steps_count _) fun _ => ?_
    exact steps_bind (steps_refresh cfg) fun _ => steps_pure _

theorem steps_processShutdown (peer : Option Net.Ip) {r : ProcessShutdownRequest}
    (h : ∀ now host, P ⟨now, .withdrawPorts host r.ports⟩) :
    Steps cfg.policy P (processShutdown cfg peer r) := by
  unfold processShutdown
  split
  · exact steps_pure _
  · refine steps_bind (steps_withdrawPorts fun now => h now _) fun evicted => ?_
    dsimp only
    split
    · refine steps_bind (steps_count _) fun _ => ?_
      exact steps_bind (steps_refresh cfg) fun _ => steps_pure _
    · exact steps_pure _

variable {policy : Policy}

theorem steps_list (r : ListRequest) : Steps policy P (list r) :=
  steps_bind (steps_look _) fun _ => steps_pure _

theorem steps_target (r : TargetRequest) : Steps policy P (target r) :=
  steps_bind (steps_look _) fun _ => steps_pure _

theorem steps_lookup (r : LookupRequest) : Steps policy P (lookup r) :=
  steps_bind (steps_look _) fun _ => steps_pure _

theorem steps_requestShutdowns (is : List Instance) : Steps policy P (requestShutdowns is) := by
  induction is with
  | nil => exact steps_pure ()
  | cons i is ih => exact steps_bind (steps_requestShutdown i.endpoint) fun _ => ih

theorem steps_shutdown (r : ShutdownRequest) : Steps policy P (shutdown r) := by
  refine steps_bind (steps_look _) fun entries => ?_
  cases entries with
  | nil => exact steps_pure _
  | cons e es => exact steps_bind (steps_requestShutdowns _) fun _ => steps_pure _

/-! ## The steps of a pass -/

theorem steps_probeAll (cs : List Candidate) : Steps policy P (Supervision.probeAll cs) := by
  induction cs with
  | nil => exact steps_pure _
  | cons c cs ih =>
    refine steps_bind (steps_probe c) fun r => ?_
    exact steps_bind ih fun rs => steps_pure _

theorem steps_noteOutcomes (h : ∀ now id success, P ⟨now, .noteProbe id success⟩)
    (outcomes : List (Candidate × Reaction)) :
    Steps policy P (Supervision.noteOutcomes outcomes) := by
  induction outcomes with
  | nil => exact steps_pure _
  | cons o rest ih =>
    obtain ⟨c, r⟩ := o
    refine steps_bind ?_ fun _ => ih
    unfold Supervision.noteOutcome
    split
    · exact steps_bind (steps_noteProbe fun now => h now c.id true) fun _ => steps_pure _
    · refine steps_bind (steps_count _) fun _ => ?_
      exact steps_bind (steps_noteProbe fun now => h now c.id false) fun _ => steps_pure _

theorem steps_pass (hsweep : ∀ now, P ⟨now, .sweep⟩)
    (hnote : ∀ now id success, P ⟨now, .noteProbe id success⟩) :
    Steps cfg.policy P (Supervision.pass cfg) := by
  -- Only noting the outcomes and the sweep change the inventory.
  refine steps_bind (steps_look _) fun candidates => ?_
  refine steps_bind (steps_probeAll candidates) fun outcomes => ?_
  refine steps_bind (steps_noteOutcomes hnote outcomes) fun _ => ?_
  refine steps_bind (steps_sweep hsweep) fun evicted => ?_
  refine steps_bind (steps_count _) fun _ => ?_
  dsimp only
  split
  · refine steps_bind (steps_refreshScrapes cfg) fun _ => ?_
    exact steps_bind steps_gauge fun _ => steps_pure _
  · exact steps_bind steps_gauge fun _ => steps_pure _

end

/-! ## The steps of a job -/

/-- Every job performs only events that fit it. -/
theorem steps_work (cfg : Settings) (job : Job) : Steps cfg.policy job.Fits (job.work cfg) := by
  cases job with
  | register peer r =>
    exact steps_silently (steps_register peer fun _ _ _ => rfl)
  | deregister r => exact steps_silently (steps_deregister fun _ => rfl)
  | list r => exact steps_silently (steps_list r)
  | target r => exact steps_silently (steps_target r)
  | lookup r => exact steps_silently (steps_lookup r)
  | shutdown r => exact steps_silently (steps_shutdown r)
  | processShutdown peer r =>
    exact steps_silently (steps_processShutdown peer fun _ _ => rfl)
  | pass =>
    exact steps_silently (steps_pass (fun _ => trivial) fun _ _ _ => trivial)

end ServiceRegistry.Server
