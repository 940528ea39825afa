/-
  ServiceRegistry.Proofs.Server.ShuttingDown

  Whom a request to shut a service down reaches. The service is looked up by its name alone, in
  one step, so entries with any deploy path are found, and those of no other service. What is
  shown of them is called one after the other. A step that makes a call appends to the list of
  calls and does nothing else, however the instance reacts, and what an instance answers is not
  looked at (`ownSteps_requestShutdowns`). So neither a failure nor others at work meanwhile can
  leave a call out or make it twice.
-/
import ServiceRegistry.Proofs.Server.Lookup
import ServiceRegistry.Proofs.World.Restraint

namespace ServiceRegistry

open Message Net World

/-! ## What is found under a name -/

namespace Service

/-- A service without a deploy path is accepted by its name, whatever deploy path it is compared
    with. -/
theorem accepts_named (s : Service) (name : String) :
    s.accepts (named name) = decide (s.name = name) := by
  have hnone : (named name).path? = none := rfl
  unfold accepts
  rw [hnone, beq_eq_decide]
  cases s.path? <;> exact Bool.and_true _

end Service

namespace Inventory

variable (inv : Inventory) (name : String)

/-- There is no entry of a name, not even a dormant one. -/
def Lacks : Prop := ∀ e ∈ inv.entries, e.service.name ≠ name

instance : Decidable (inv.Lacks name) := inferInstanceAs (Decidable (∀ e ∈ inv.entries, _))

/-- Where the instances listen that are stored under a name and are not hidden. -/
def endpointsUnder : List Endpoint :=
  (inv.stored.filter fun t => t.1.name = name && !t.2.disabled).map (·.2.endpoint)

theorem lookup_named_eq_nil_iff : inv.lookup (.named name) = [] ↔ inv.Lacks name := by
  simp only [lookup, Lacks, List.map_eq_nil_iff, List.filter_eq_nil_iff, Service.accepts_named,
    decide_eq_true_eq, ne_eq]

theorem endpoints_lookup_named :
    ((inv.lookup (.named name)).flatMap (·.instances)).map (·.endpoint)
      = inv.endpointsUnder name := by
  have hshown : inv.shown.filter (fun t => t.1.accepts (.named name)) =
      inv.stored.filter fun t => t.1.name = name && !t.2.disabled := by
    rw [shown, List.filter_filter]
    refine List.filter_congr fun t _ => ?_
    rw [Service.accepts_named]
  rw [endpointsUnder, ← hshown, ← lookup_shown]
  simp only [List.map_flatMap, List.map_map, Function.comp_def]

end Inventory

/-! ## Calls one after the other -/

namespace World

/-- A world after calls to some endpoints. -/
def askedAlso (w : World) (endpoints : List Endpoint) : World :=
  { w with fleet := { w.fleet with asked := w.fleet.asked ++ endpoints } }

theorem askedAlso_nil (w : World) : w.askedAlso [] = w := by
  unfold askedAlso
  rw [List.append_nil]

theorem askedAlso_cons (w : World) (e : Endpoint) (es : List Endpoint) :
    (w.askedAlso [e]).askedAlso es = w.askedAlso (e :: es) := by
  unfold askedAlso
  dsimp only
  rw [List.append_assoc, List.singleton_append]

/-- A step of an activity is a call to an endpoint. -/
def Asks (s : World × World) (e : Endpoint) : Prop := s.2 = s.1.askedAlso [e]

theorem ownSteps_bind_pure {α β : Type} (f : α → β) (x : Work α) (others : Nat → World → World)
    (w : World) :
    ownSteps (x >>= fun a => pure (f a)) others w =
      (f (ownSteps x others w).1, (ownSteps x others w).2) := by
  induction x generalizing others w with
  | done a => rfl
  | step act next ih => rw [Activity.step_bind, ownSteps, ownSteps, ih]

end World

namespace Server

theorem run_requestShutdowns (is : List Instance) (w : World) :
    (requestShutdowns is).run w = ((), w.askedAlso (is.map (·.endpoint))) := by
  induction is generalizing w with
  | nil => exact congrArg (Prod.mk ()) w.askedAlso_nil.symm
  | cons i is ih =>
    have hstep : (requestShutdowns (i :: is)).run w =
        (requestShutdowns is).run (w.askedAlso [i.endpoint]) := rfl
    rw [hstep, ih, askedAlso_cons, List.map_cons]

/-- Whatever others do in between, there is a call for each instance, in order, and no step is
    anything else. -/
theorem ownSteps_requestShutdowns (is : List Instance) (others : Nat → World → World)
    (w : World) :
    List.Forall₂ Asks (ownSteps (requestShutdowns is) others w).2 (is.map (·.endpoint)) := by
  induction is generalizing others w with
  | nil => exact .nil
  | cons i is ih => exact .cons rfl (ih _ _)

/-! ## The whole operation -/

/-- The service is looked up by its name, and what is found decides everything. -/
theorem shutdown_eq (request : ShutdownRequest) :
    shutdown request = .step id fun w =>
      if w.inventory.Lacks request.serviceName then
        pure (.error (.serviceNotFound request.serviceName))
      else
        requestShutdowns ((w.inventory.lookup (.named request.serviceName)).flatMap (·.instances))
          >>= fun _ => pure (.ok ⟨⟩) := by
  refine congrArg (Activity.step id) (funext fun w => ?_)
  have hiff := w.inventory.lookup_named_eq_nil_iff request.serviceName
  cases hlookup : w.inventory.lookup (.named request.serviceName) with
  | nil =>
    rw [if_pos (hiff.1 hlookup)]
    dsimp only
    rw [hlookup]
    rfl
  | cons e es =>
    rw [if_neg (mt hiff.2 (hlookup ▸ List.cons_ne_nil e es))]
    dsimp only
    rw [hlookup]
    rfl

section

variable {request : ShutdownRequest} {w : World}

theorem run_shutdown_of_none
    (h : w.inventory.Lacks request.serviceName) :
    (shutdown request).run w = (.error (.serviceNotFound request.serviceName), w) := by
  rw [shutdown_eq, Activity.run_step, if_pos h]
  rfl

theorem run_shutdown_of_some
    (h : ¬ w.inventory.Lacks request.serviceName) :
    (shutdown request).run w =
      (.ok ⟨⟩, w.askedAlso (w.inventory.endpointsUnder request.serviceName)) := by
  rw [shutdown_eq, Activity.run_step, if_neg h, Activity.run_bind, run_requestShutdowns,
    Inventory.endpoints_lookup_named]
  rfl

variable {others : Nat → World → World}

theorem ownSteps_shutdown_of_none
    (h : (others 0 w).inventory.Lacks request.serviceName) :
    ownSteps (shutdown request) others w =
      (.error (.serviceNotFound request.serviceName), [(others 0 w, others 0 w)]) := by
  rw [shutdown_eq, ownSteps, if_pos h]
  rfl

theorem ownSteps_shutdown_of_some
    (h : ¬ (others 0 w).inventory.Lacks request.serviceName) :
    ∃ asks, ownSteps (shutdown request) others w = (.ok ⟨⟩, (others 0 w, others 0 w) :: asks) ∧
      List.Forall₂ Asks asks ((others 0 w).inventory.endpointsUnder request.serviceName) := by
  rw [← Inventory.endpoints_lookup_named, shutdown_eq, ownSteps, if_neg h, ownSteps_bind_pure]
  exact ⟨_, rfl, ownSteps_requestShutdowns _ _ _⟩

end

/-! ## Requests -/

/-- A request for an operation that is let in and can be read takes the steps of the handler.
    Where a secret is set it has looked at the time before. -/
theorem Handles.ownSteps_respond {α β : Type} {cfg : Settings} {peer : Option Ip} {r : Request}
    {op : Operation} {decode : Json.Decoder α} {encode : β → Json} {a : α}
    {handler : Settings → α → Work (Except RegistryError β)}
    (h : Handles (peer.map Ip.canonical) op decode encode handler)
    (hmethod : r.method = "POST") (hpath : r.path = op.path) (hread : readBody decode r = .ok a)
    {others : Nat → World → World} {w : World}
    (hadmitted : ∀ secret, cfg.secret = some secret →
      refusal? secret op.permission (others 0 w).unixTime r.authorization = none) :
    ∃ before others' w', (∀ s ∈ before, s.2 = s.1) ∧
      ownSteps (respond cfg peer r) others w =
        (respondWith encode (ownSteps (handler cfg a) others' w').1,
          before ++ (ownSteps (handler cfg a) others' w').2) := by
  cases hsecret : cfg.secret with
  | none =>
    refine ⟨[], others, w, List.forall_mem_nil _, ?_⟩
    rw [h.respond_open hsecret hmethod hpath hread, ownSteps_bind_pure]
    rfl
  | some secret =>
    have hpermission : requiredPermission? r.path = some op.permission := by
      rw [hpath]
      exact requiredPermission?_path op
    refine ⟨[(others 0 w, others 0 w)], fun n => others (n + 1), others 0 w,
      List.forall_mem_singleton.2 rfl, ?_⟩
    rw [respond_gated hsecret hpermission, ownSteps, hadmitted secret hsecret]
    dsimp only
    rw [h.respond_open rfl hmethod hpath hread, h.openly, ownSteps_bind_pure]
    rfl

/-- A request to shut a service down that is let in and can be read is answered with 404 exactly
    if there is no entry of that name, and then no instance has been called. Otherwise it is
    answered with 200, and the instances that are stored under that name, whatever the deploy
    path, and are not hidden have been called, one time each and in order. Nothing else has
    changed. If others are at work meanwhile, what counts is what is stored when the request
    looks; its own steps after that are these calls, whatever has become of the inventory. -/
theorem respond_shutdown (cfg : Settings) (peer : Option Ip) (r : Request)
    (request : ShutdownRequest) (hmethod : r.method = "POST")
    (hpath : r.path = Operation.shutdown.path)
    (hread : readBody ShutdownRequest.decode r = .ok request) (w : World) :
    let name := request.serviceName
    let refused := Response.json 404
      (ErrorBody.toJson ⟨(RegistryError.serviceNotFound name).message⟩)
    let done := Response.json 200 (Ack.toJson ⟨⟩)
    ((∀ secret, cfg.secret = some secret →
        refusal? secret Operation.shutdown.permission w.unixTime r.authorization = none) →
      let answered := (respond cfg peer r).run w
      (answered.1.status = 404 ↔ w.inventory.Lacks name) ∧
      (w.inventory.Lacks name → answered = (refused, w)) ∧
      (¬ w.inventory.Lacks name →
        answered = (done, w.askedAlso (w.inventory.endpointsUnder name)))) ∧
    ∀ others : Nat → World → World,
      (∀ secret, cfg.secret = some secret → refusal? secret Operation.shutdown.permission
        (others 0 w).unixTime r.authorization = none) →
      let answered := ownSteps (respond cfg peer r) others w
      ∃ before met asks, answered.2 = before ++ (met, met) :: asks ∧ (∀ s ∈ before, s.2 = s.1) ∧
        (answered.1.status = 404 ↔ met.inventory.Lacks name) ∧
        (met.inventory.Lacks name → answered.1 = refused ∧ asks = []) ∧
        (¬ met.inventory.Lacks name →
          answered.1 = done ∧ List.Forall₂ Asks asks (met.inventory.endpointsUnder name)) := by
  intro name refused done
  have hfound : (200 : Nat) ≠ 404 := by decide
  constructor
  · intro hadmitted answered
    have hanswered : answered = (respondWith Ack.toJson ((shutdown request).run w).1,
        ((shutdown request).run w).2) :=
      (handles_shutdown _).run_respond hmethod hpath hread hadmitted
    by_cases hlacks : w.inventory.Lacks name
    case pos =>
      rw [run_shutdown_of_none hlacks] at hanswered
      rw [hanswered]
      exact ⟨⟨fun _ => hlacks, fun _ => rfl⟩, fun _ => rfl, fun h => absurd hlacks h⟩
    case neg =>
      rw [run_shutdown_of_some hlacks] at hanswered
      rw [hanswered]
      exact ⟨⟨fun h => absurd h hfound, fun h => absurd h hlacks⟩,
        fun h => absurd h hlacks, fun _ => rfl⟩
  · intro others hadmitted answered
    obtain ⟨before, others', w', hbefore, hanswered⟩ :=
      (handles_shutdown _).ownSteps_respond hmethod hpath hread hadmitted
    -- What the handler meets in its first step decides.
    by_cases hlacks : (others' 0 w').inventory.Lacks name
    case pos =>
      rw [ownSteps_shutdown_of_none hlacks] at hanswered
      refine ⟨before, others' 0 w', [], congrArg Prod.snd hanswered, hbefore, ?_⟩
      rw [show answered = _ from hanswered]
      exact ⟨⟨fun _ => hlacks, fun _ => rfl⟩, fun _ => ⟨rfl, rfl⟩, fun h => absurd hlacks h⟩
    case neg =>
      obtain ⟨asks, hsteps, hasks⟩ := ownSteps_shutdown_of_some hlacks
      rw [hsteps] at hanswered
      refine ⟨before, others' 0 w', asks, congrArg Prod.snd hanswered, hbefore, ?_⟩
      rw [show answered = _ from hanswered]
      exact ⟨⟨fun h => absurd h hfound, fun h => absurd h hlacks⟩,
        fun h => absurd h hlacks, fun _ => ⟨rfl, hasks⟩⟩

/-- Two builds of a service share an endpoint, one instance is hidden and another service has a
    longer name. The shared endpoint hangs and another one fails. Nobody is found any more as
    soon as the request has looked. -/
theorem respond_shutdown_two_builds :
    let registry : Client.Handle := { origin := "http://registry" }
    let r := (registry.call .shutdown (ShutdownRequest.toJson ⟨"kv"⟩)).request
    let i (id : InstanceId) (host : String) : Instance := .enrolled id ⟨host, 9000⟩ [.tcp] 0
    let inventory : Inventory := ⟨
      [⟨⟨"kv", some "ns/g/kv/1"⟩, [i 1 "node-1", { i 2 "node-2" with disabled := true }]⟩,
        ⟨⟨"kv-admin", none⟩, [i 3 "node-3"]⟩,
        ⟨⟨"kv", some "ns/g/kv/2"⟩, [i 4 "node-4", i 5 "node-1"]⟩], 5⟩
    let fleet := Fleet.script {} ["node-4:9000"] ["node-1:9000"]
    let w : World := { clock := 1000, unixTime := 0, inventory, fleet }
    let others (n : Nat) (w : World) : World := if n = 0 then w else { w with inventory := .empty }
    let reached : List Endpoint := [⟨"node-1", 9000⟩, ⟨"node-4", 9000⟩, ⟨"node-1", 9000⟩]
    (respond {} none r).run w = (.json 200 (Ack.toJson ⟨⟩), w.askedAlso reached) ∧
    (ownSteps (respond {} none r) others w).1.status = 200 ∧
    ∃ before met asks, (ownSteps (respond {} none r) others w).2 = before ++ (met, met) :: asks ∧
      List.Forall₂ Asks asks (met.inventory.endpointsUnder "kv") := by
  intro registry r i inventory fleet w others reached
  have hread : readBody ShutdownRequest.decode r = .ok ⟨"kv"⟩ := by decide +kernel
  have hthere : ¬ w.inventory.Lacks "kv" := by decide
  have hreached : w.inventory.endpointsUnder "kv" = reached := by decide
  have hstatus : (ownSteps (respond {} none r) others w).1.status = 200 := by decide +kernel
  obtain ⟨halone, hothers⟩ := respond_shutdown {} none r _ rfl (by decide) hread w
  obtain ⟨-, -, hanswered⟩ := halone nofun
  obtain ⟨before, met, asks, hsteps, -, hlacks, -, hasks⟩ := hothers others nofun
  rw [hreached] at hanswered
  have hmet : ¬ met.inventory.Lacks "kv" := by
    rw [← hlacks, hstatus]
    decide
  exact ⟨hanswered hthere, hstatus, before, met, asks, hsteps, (hasks hmet).2⟩

end Server

end ServiceRegistry
