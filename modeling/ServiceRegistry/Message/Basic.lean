/-
  ServiceRegistry.Message.Basic

  The requests and answers exchanged with the registry.
-/
import ServiceRegistry.Inventory.Views
import ServiceRegistry.Resolution

namespace ServiceRegistry.Message

/-! ## Registration -/

/-- An address as a registering service announces it. An empty host means the address the
request comes from. -/
structure Announcement where
  host : String := ""
  port : UInt16
  capabilities : List Capability := []
  deriving DecidableEq, Repr

/-- A service announces its addresses. -/
structure RegisterRequest where
  service : Service
  addresses : List Announcement
  deriving DecidableEq, Repr

/-- The number of the last instance, and the addresses as they are published. -/
structure RegisterResponse where
  instanceId : InstanceId
  addresses : List Endpoint
  deriving DecidableEq, Repr

/-- An instance is to be removed. -/
structure DeregisterRequest where
  instanceId : InstanceId
  deriving DecidableEq, Repr

/-! ## Queries -/

/-- Services are to be listed, all or those with a name. -/
structure ListRequest where
  name : String := ""
  deriving DecidableEq, Repr

/-- Instances are to be found by capability, deploy path and name. -/
structure TargetRequest where
  path : String := ""
  name : String := ""
  capability : Capability
  deriving DecidableEq, Repr

/-- The addresses of a service are to be found. -/
structure LookupRequest where
  service : Service
  deriving DecidableEq, Repr

/-- The published address of an instance and what it offers. -/
structure Address where
  host : String
  port : UInt16
  capabilities : List Capability
  deriving DecidableEq, Repr

/-- A service and its addresses. -/
structure Listing where
  service : Service
  addresses : List Address
  deriving DecidableEq, Repr

/-- The services asked for. -/
structure ListResponse where
  services : List Listing := []
  deriving DecidableEq, Repr

/-! ## Shutdown -/

/-- The instances of a service are to be shut down. -/
structure ShutdownRequest where
  serviceName : String
  deriving DecidableEq, Repr

/-- A process goes away with everything that listens on some ports of its host, which is
the host the request comes from unless it is given. -/
structure ProcessShutdownRequest where
  host : Option String := none
  ports : List UInt16
  deriving DecidableEq, Repr

/-! ## Other -/

/-- A message that says nothing. -/
structure Ack where
  deriving DecidableEq, Repr

/-- A request was refused. -/
structure ErrorBody where
  error : String
  deriving DecidableEq, Repr

/-! ## Listings -/

/-- The address of an instance. -/
def Address.ofInstance (i : Instance) : Address :=
  ⟨i.endpoint.host, i.endpoint.port, i.capabilities⟩

/-- The listing of an entry. -/
def Listing.ofEntry (e : Entry) : Listing := ⟨e.service, e.instances.map .ofInstance⟩

/-- One listing for each entry. -/
def ListResponse.ofEntries (es : List Entry) : ListResponse := ⟨es.map .ofEntry⟩

/-- One listing for each target. -/
def ListResponse.ofTargets (ts : List (Service × Instance)) : ListResponse :=
  ⟨ts.map fun (s, i) => ⟨s, [.ofInstance i]⟩⟩

end ServiceRegistry.Message
