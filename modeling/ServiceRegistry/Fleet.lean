/-
  ServiceRegistry.Fleet

  The registered instances as the registry meets them from outside: how they react when
  they are called, and the calls made so far.
-/
import ServiceRegistry.Inventory.Views

namespace ServiceRegistry

/-- How an instance reacts to a call. -/
inductive Reaction
  | succeeds
  | fails
  /-- There is no answer before the caller gives up. -/
  | hangs
  deriving DecidableEq, Repr

/-- The reactions to come and the calls made. -/
structure Fleet where
  onProbe : Candidate → Reaction := fun _ => .succeeds
  onShutdown : Endpoint → Reaction := fun _ => .succeeds
  /-- The probes made, in order. -/
  probed : List Candidate := []
  /-- The requests to shut down, in order. -/
  asked : List Endpoint := []

namespace Fleet

/-- A reaction given by the text of an endpoint. -/
def scripted (failing hanging : List String) (e : Endpoint) : Reaction :=
  if hanging.contains e.text then .hangs
  else if failing.contains e.text then .fails
  else .succeeds

/-- Replaces the reactions to come. -/
def script (f : Fleet) (failing hanging : List String) : Fleet :=
  { f with onProbe := fun c => scripted failing hanging c.endpoint
           onShutdown := scripted failing hanging }

/-- Calls an instance to see whether it is alive. -/
def probe (f : Fleet) (c : Candidate) : Reaction × Fleet :=
  (f.onProbe c, { f with probed := f.probed ++ [c] })

/-- Calls an instance to ask it to shut down. -/
def requestShutdown (f : Fleet) (e : Endpoint) : Reaction × Fleet :=
  (f.onShutdown e, { f with asked := f.asked ++ [e] })

end Fleet

end ServiceRegistry
