/-
  ServiceRegistry.Message.Decode

  The forms in which messages are read. Beside the fields that a message always has, some
  have a default and may be left out.
-/
import ServiceRegistry.Access.Claims
import ServiceRegistry.Json.Record
import ServiceRegistry.Message.Basic

namespace ServiceRegistry

open Json (Decoder RecordField Variant)

/-! ## Choices -/

/-- Reads one of some values, given by its name. -/
def Json.Decoder.named {α : Type} (values : List α) (name : α → String) : Decoder α :=
  Decoder.choice (values.map fun a => (name a, Variant.bare a))

/-- Reads a capability. -/
def Capability.decode : Decoder Capability := .named Capability.all Capability.name

/-- Reads a reason. -/
def EvictionReason.decode : Decoder EvictionReason :=
  .named EvictionReason.all EvictionReason.name

/-- Reads a condition. -/
def Condition.decode : Decoder Condition :=
  .choice [("live", .bare .live), ("suspect", .bare .suspect),
    ("evicted", .holding fun raw => (EvictionReason.decode raw).map .evicted)]

/-- Reads a role. -/
def Access.Role.decode : Decoder Access.Role := .named Access.Role.all Access.Role.name

/-- Reads a permission. -/
def Access.Permission.decode : Decoder Access.Permission :=
  .named Access.Permission.all Access.Permission.name

/-! ## Parts -/

namespace Message.Fields

/-- The name of a service. -/
def serviceName : RecordField String := ⟨"name", .string, none⟩

/-- The deploy path of a service, absent if it is left out. -/
def deployPath : RecordField (Option String) := ⟨"deploy_path", .optional .string, some none⟩

/-- A host that must be given. -/
def host : RecordField String := ⟨"host", .string, none⟩

/-- A host that is empty if it is left out. -/
def hostOrEmpty : RecordField String := { host with default? := some "" }

/-- A host that is absent if it is left out. -/
def hostIfAny : RecordField (Option String) := ⟨"host", .optional .string, some none⟩

/-- A port. -/
def port : RecordField UInt16 := ⟨"port", .uint16, none⟩

/-- The capabilities of an address. -/
def capabilities : RecordField (List Capability) := ⟨"api_types", .list Capability.decode, none⟩

/-- The capabilities of an address, none if they are left out. -/
def capabilitiesOrNone : RecordField (List Capability) := { capabilities with default? := some [] }

/-- The holder of a token. -/
def subject : RecordField String := ⟨"sub", .string, none⟩

/-- The roles of the holder. -/
def roles : RecordField (List Access.Role) := ⟨"roles", .list Access.Role.decode, none⟩

/-- The time at which a token expires. -/
def expiry : RecordField UInt64 := ⟨"exp", .size, none⟩

end Message.Fields

open Message

/-- Reads a service. -/
def Service.decode : Decoder Service :=
  .record "ServiceDescription" [Fields.serviceName.rule, Fields.deployPath.rule] fun t => do
    pure ⟨← Fields.serviceName.get t, ← Fields.deployPath.get t⟩

/-- Reads an endpoint under the title that messages give it. -/
def Endpoint.decode (title : String) : Decoder Endpoint :=
  .record title [Fields.host.rule, Fields.port.rule] fun t => do
    pure ⟨← Fields.host.get t, ← Fields.port.get t⟩

/-- Reads claims. -/
def Access.Claims.decode : Decoder Access.Claims :=
  .record "Claims" [Fields.subject.rule, Fields.roles.rule, Fields.expiry.rule] fun t => do
    pure ⟨← Fields.subject.get t, ← Fields.roles.get t, ← Fields.expiry.get t⟩

namespace Message

/-- Reads an announcement. -/
def Announcement.decode : Decoder Announcement :=
  .record "AddressSpec"
    [Fields.hostOrEmpty.rule, Fields.port.rule, Fields.capabilitiesOrNone.rule] fun t => do
    pure ⟨← Fields.hostOrEmpty.get t, ← Fields.port.get t, ← Fields.capabilitiesOrNone.get t⟩

/-- Reads an address. -/
def Address.decode : Decoder Address :=
  .record "InstanceAddress"
    [Fields.host.rule, Fields.port.rule, Fields.capabilities.rule] fun t => do
    pure ⟨← Fields.host.get t, ← Fields.port.get t, ← Fields.capabilities.get t⟩

/-! ## Fields of messages -/

namespace Fields

/-- The service of a message. -/
def service : RecordField Service := ⟨"service", Service.decode, none⟩

/-- The addresses that a service announces. -/
def announcements : RecordField (List Announcement) :=
  ⟨"addresses", .list Announcement.decode, none⟩

/-- The addresses as they are published. -/
def endpoints : RecordField (List Endpoint) :=
  ⟨"addresses", .list (Endpoint.decode "RegisteredAddress"), none⟩

/-- The addresses of a service. -/
def addresses : RecordField (List Address) := ⟨"addresses", .list Address.decode, none⟩

/-- The number of an instance. -/
def instanceId : RecordField InstanceId := ⟨"instance_id", .uint64, none⟩

/-- A name that is empty if it is left out. -/
def nameOrEmpty : RecordField String := ⟨"name", .string, some ""⟩

/-- A deploy path that is empty if it is left out. -/
def pathOrEmpty : RecordField String := ⟨"deploy_path", .string, some ""⟩

/-- A capability asked for. -/
def capability : RecordField Capability := ⟨"api_type", Capability.decode, none⟩

/-- The name of a service to be shut down. -/
def shutdownName : RecordField String := ⟨"service_name", .string, none⟩

/-- Ports. -/
def ports : RecordField (List UInt16) := ⟨"ports", .list .uint16, none⟩

/-- The text of an error. -/
def error : RecordField String := ⟨"error", .string, none⟩

end Fields

/-! ## Messages -/

/-- Reads a request to register. -/
def RegisterRequest.decode : Decoder RegisterRequest :=
  .record "RegisterRequest" [Fields.service.rule, Fields.announcements.rule] fun t => do
    pure ⟨← Fields.service.get t, ← Fields.announcements.get t⟩

/-- Reads the answer to a registration. -/
def RegisterResponse.decode : Decoder RegisterResponse :=
  .record "RegisterResponse" [Fields.instanceId.rule, Fields.endpoints.rule] fun t => do
    pure ⟨← Fields.instanceId.get t, ← Fields.endpoints.get t⟩

/-- Reads a request to remove an instance. -/
def DeregisterRequest.decode : Decoder DeregisterRequest :=
  .record "DeregisterRequest" [Fields.instanceId.rule] fun t => do
    pure ⟨← Fields.instanceId.get t⟩

/-- Reads a request for a list. -/
def ListRequest.decode : Decoder ListRequest :=
  .record "ListRequest" [Fields.nameOrEmpty.rule] fun t => do
    pure ⟨← Fields.nameOrEmpty.get t⟩

/-- Reads a request for targets. -/
def TargetRequest.decode : Decoder TargetRequest :=
  .record "GetTargetRequest"
    [Fields.pathOrEmpty.rule, Fields.nameOrEmpty.rule, Fields.capability.rule] fun t => do
    pure ⟨← Fields.pathOrEmpty.get t, ← Fields.nameOrEmpty.get t, ← Fields.capability.get t⟩

/-- Reads a request for the addresses of a service. -/
def LookupRequest.decode : Decoder LookupRequest :=
  .record "GetServiceAddressRequest" [Fields.service.rule] fun t => do
    pure ⟨← Fields.service.get t⟩

/-- Reads a listing under the title that messages give it. -/
def Listing.decode (title : String) : Decoder Listing :=
  .record title [Fields.service.rule, Fields.addresses.rule] fun t => do
    pure ⟨← Fields.service.get t, ← Fields.addresses.get t⟩

/-- Reads the answer to a lookup. -/
def Listing.decodeAnswer : Decoder Listing := Listing.decode "ServiceAddressResponse"

/-- The listings of a list. -/
def Fields.listings : RecordField (List Listing) :=
  ⟨"services", .list (Listing.decode "ServiceListing"), none⟩

/-- Reads a list of services. -/
def ListResponse.decode : Decoder ListResponse :=
  .record "ListResponse" [Fields.listings.rule] fun t => do pure ⟨← Fields.listings.get t⟩

/-- Reads a request to shut down a service. -/
def ShutdownRequest.decode : Decoder ShutdownRequest :=
  .record "ShutdownRequest" [Fields.shutdownName.rule] fun t => do
    pure ⟨← Fields.shutdownName.get t⟩

/-- Reads the notice of a process that goes away. -/
def ProcessShutdownRequest.decode : Decoder ProcessShutdownRequest :=
  .record "ProcessShutdownRequest" [Fields.hostIfAny.rule, Fields.ports.rule] fun t => do
    pure ⟨← Fields.hostIfAny.get t, ← Fields.ports.get t⟩

/-- Reads a message that says nothing. -/
def Ack.decode : Decoder Ack := .record "Empty" [] fun _ => pure ⟨⟩

/-- Reads the refusal of a request. -/
def ErrorBody.decode : Decoder ErrorBody :=
  .record "ErrorBody" [Fields.error.rule] fun t => do pure ⟨← Fields.error.get t⟩

end Message

end ServiceRegistry
