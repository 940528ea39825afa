/-
  ServiceRegistry.Inventory.Sweep

  The removal of instances that the policy no longer keeps. A sweep parts the instances
  into those that stay and those that are evicted.
-/
import ServiceRegistry.Inventory.Basic

namespace ServiceRegistry

/-- An instance removed from the inventory, and why. -/
structure Eviction where
  service : Service
  removed : Instance
  reason : EvictionReason
  deriving DecidableEq, Repr

namespace Entry

/-- The instances that stay. -/
def swept (e : Entry) (policy : Policy) (now : UInt64) : Entry :=
  { e with instances := e.instances.filter (policy.keeps now) }

/-- The instances that go. -/
def evictions (e : Entry) (policy : Policy) (now : UInt64) : List Eviction :=
  e.instances.filterMap fun i => (policy.verdict? i now).map (⟨e.service, i, ·⟩)

end Entry

namespace Inventory

/-- Removes what the policy does not keep and gives the evictions in order. -/
def sweep (inv : Inventory) (policy : Policy) (now : UInt64) : List Eviction × Inventory :=
  (inv.entries.flatMap (·.evictions policy now),
    { inv with entries := inv.entries.map (·.swept policy now) })

/-- Hides an instance and sweeps. The instance itself is among the evictions. -/
def withdraw (inv : Inventory) (policy : Policy) (id : InstanceId) (now : UInt64) :
    Except RegistryError (List Eviction × Inventory) :=
  (inv.retire id).map fun (_, inv) => inv.sweep policy now

/-- The instance listens on a host at one of some ports. -/
def listensAt (host : String) (ports : List UInt16) (i : Instance) : Bool :=
  i.endpoint.host == host && ports.contains i.endpoint.port

/-- Hides every instance of an entry that listens on a host at one of some ports. -/
def hideAt (host : String) (ports : List UInt16) (e : Entry) : Entry :=
  { e with instances := e.instances.map fun i => if listensAt host ports i then i.hidden else i }

/-- Hides every instance that listens on a host at one of some ports and sweeps. Nothing
is swept when there is none. -/
def withdrawPorts (inv : Inventory) (policy : Policy) (host : String) (ports : List UInt16)
    (now : UInt64) : List Eviction × Inventory :=
  if inv.entries.any (·.instances.any (listensAt host ports)) then
    { inv with entries := inv.entries.map (hideAt host ports) : Inventory }.sweep policy now
  else ([], inv)

end Inventory

end ServiceRegistry
