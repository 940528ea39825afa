/-
  ServiceRegistry.Instance

  Registered instances. Times are milliseconds; the count of failures stops at its limit.
-/
import ServiceRegistry.Capability
import ServiceRegistry.Service

namespace ServiceRegistry

/-- The number given to an instance when it was registered. -/
abbrev InstanceId := UInt64

/-- One running copy of a service. -/
structure Instance where
  id : InstanceId
  endpoint : Endpoint
  capabilities : List Capability
  disabled : Bool
  firstRegistered : UInt64
  lastSuccess : UInt64
  lastRefresh : UInt64
  failures : UInt32
  deriving DecidableEq, Repr

namespace Instance

/-- An instance just registered counts as refreshed and as successfully probed. -/
def enrolled (id : InstanceId) (endpoint : Endpoint) (capabilities : List Capability)
    (now : UInt64) : Instance :=
  { id, endpoint, capabilities, disabled := false, firstRegistered := now
    lastSuccess := now, lastRefresh := now, failures := 0 }

/-- The instance has a capability. -/
def offers (i : Instance) (c : Capability) : Bool := i.capabilities.contains c

/-- The instance answers probes. -/
def isProbeable (i : Instance) : Bool := i.offers .status

/-- The instance is shown to readers. -/
def isVisible (i : Instance) : Bool := !i.disabled

/-- Registers the instance again. -/
def refreshed (i : Instance) (now : UInt64) : Instance := { i with lastRefresh := now }

/-- Hides the instance until it is swept away. -/
def hidden (i : Instance) : Instance := { i with disabled := true }

/-- Notes a probe that was answered. -/
def succeeded (i : Instance) (now : UInt64) : Instance :=
  { i with failures := 0, lastSuccess := now }

/-- Notes a probe that failed. -/
def failed (i : Instance) : Instance :=
  { i with
    failures :=
      if i.failures = UInt32.ofNat (UInt32.size - 1) then i.failures else i.failures + 1 }

/-- Notes the outcome of a probe. -/
def probed (i : Instance) (success : Bool) (now : UInt64) : Instance :=
  if success then i.succeeded now else i.failed

/-- The number of the instance and its endpoint. -/
def label (i : Instance) : String := toString i.id.toNat ++ " " ++ i.endpoint.text

end Instance

end ServiceRegistry
