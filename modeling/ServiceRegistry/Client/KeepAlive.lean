/-
  ServiceRegistry.Client.KeepAlive

  Registrations that are kept fresh by repeating them. The number of the instance that a
  request last registered is held until it is withdrawn; a round that fails leaves an
  earlier number in place.
-/
import ServiceRegistry.Client.Registry
import ServiceRegistry.Supervision.Loop

namespace ServiceRegistry.Client

open Message

/-- A request and the number of the instance it has registered. -/
structure Registration where
  request : RegisterRequest
  held : Option InstanceId := none
  deriving DecidableEq, Repr

namespace KeepAlive

variable {σ : Type} (h : Handle) (net : Network σ)

/-- The registrations of some requests, none of them made yet. -/
def ofRequests (rs : List RegisterRequest) : List Registration := rs.map fun r => { request := r }

/-- The numbers held, in the order of the requests. -/
def held (rs : List Registration) : List InstanceId := rs.filterMap (·.held)

/-- Sends every request once; gives the numbers of those that succeeded. -/
def announce : List Registration → Activity σ (List (Option InstanceId))
  | [] => pure []
  | r :: rs => do
    let answer ← h.register net r.request
    let id := match answer with
      | .ok response => some response.instanceId
      | .error _ => none
    let ids ← announce rs
    pure (id :: ids)

/-- Registers everything once; gives the number of successes and what is held then. -/
def registerAll (rs : List Registration) : Activity σ (Nat × List Registration) := do
  let ids ← announce h net rs
  pure (ids.countP (·.isSome), rs.zipWith (fun r id => { r with held := id.or r.held }) ids)

/-- Withdraws instances one after the other; gives the first error that matters. One that
is gone already is no error. -/
def withdrawAll : List InstanceId → Activity σ (Except ClientError Unit)
  | [] => pure (.ok ())
  | id :: ids => do
    let answer ← h.deregister net id
    let rest ← withdrawAll ids
    match answer with
    | .ok _ => pure rest
    | .error e => pure (if e.isNotFound then rest else .error e)

/-- Withdraws everything held. -/
def shutdown (rs : List Registration) :
    Activity σ (Except ClientError Unit × List Registration) := do
  let result ← withdrawAll h net (held rs)
  pure (result, rs.map fun r => { r with held := none })

/-- Registers everything at an interval until a signal stops it; every round takes the
time given. -/
def keep (period duration : Nat) (signals : List (Nat × Supervision.Signal))
    (rs : List Registration) (s : σ) : List Registration × σ :=
  let round : List Registration × σ → Nat × (List Registration × σ) := fun (rs, s) =>
    let ((_, rs), s) := (registerAll h net rs).run s
    (duration, rs, s)
  (Supervision.repeatUntil period round signals (rs, s)).2

end KeepAlive

end ServiceRegistry.Client
