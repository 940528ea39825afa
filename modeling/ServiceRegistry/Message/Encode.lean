/-
  ServiceRegistry.Message.Encode

  Messages as JSON values. Members stand in a fixed order; an absent deploy path or host
  is left out.
-/
import ServiceRegistry.Access.Claims
import ServiceRegistry.Json.Basic
import ServiceRegistry.Message.Basic

namespace ServiceRegistry

/-! ## Parts -/

/-- The capability as a value. -/
def Capability.toJson (c : Capability) : Json := .string c.name

/-- Several capabilities as a value. -/
def Capability.listToJson (cs : List Capability) : Json := .array (cs.map (·.toJson))

/-- A member that is left out when there is no value. -/
def Json.member? (key : String) (value : Option String) : List (String × Json) :=
  match value with
  | some text => [(key, .string text)]
  | none => []

/-- A port as a value. -/
def Json.port (p : UInt16) : Json := .natural p.toNat

/-- A number of 64 bits as a value. -/
def Json.word (n : UInt64) : Json := .natural n.toNat

/-- The service as a value. -/
def Service.toJson (s : Service) : Json :=
  .object (("name", .string s.name) :: Json.member? "deploy_path" s.deployPath)

/-- The endpoint as a value. -/
def Endpoint.toJson (e : Endpoint) : Json :=
  .object [("host", .string e.host), ("port", .port e.port)]

/-- The reason as a value. -/
def EvictionReason.toJson (r : EvictionReason) : Json := .string r.name

/-- The condition as a value. -/
def Condition.toJson : Condition → Json
  | live => .string "live"
  | suspect => .string "suspect"
  | evicted r => .object [("evicted", r.toJson)]

namespace Access

/-- The role as a value. -/
def Role.toJson (r : Role) : Json := .string r.name

/-- The permission as a value. -/
def Permission.toJson (p : Permission) : Json := .string p.name

/-- The claims as a value. -/
def Claims.toJson (c : Claims) : Json :=
  .object [("sub", .string c.subject), ("roles", .array (c.roles.map (·.toJson))),
    ("exp", .word c.expiry)]

end Access

/-! ## Messages -/

namespace Message

/-- The announcement as a value. -/
def Announcement.toJson (a : Announcement) : Json :=
  .object [("host", .string a.host), ("port", .port a.port),
    ("api_types", Capability.listToJson a.capabilities)]

/-- The request as a value. -/
def RegisterRequest.toJson (r : RegisterRequest) : Json :=
  .object [("service", r.service.toJson), ("addresses", .array (r.addresses.map (·.toJson)))]

/-- The answer as a value. -/
def RegisterResponse.toJson (r : RegisterResponse) : Json :=
  .object [("instance_id", .word r.instanceId), ("addresses", .array (r.addresses.map (·.toJson)))]

/-- The request as a value. -/
def DeregisterRequest.toJson (r : DeregisterRequest) : Json :=
  .object [("instance_id", .word r.instanceId)]

/-- The request as a value. -/
def ListRequest.toJson (r : ListRequest) : Json := .object [("name", .string r.name)]

/-- The request as a value. -/
def TargetRequest.toJson (r : TargetRequest) : Json :=
  .object [("deploy_path", .string r.path), ("name", .string r.name),
    ("api_type", r.capability.toJson)]

/-- The request as a value. -/
def LookupRequest.toJson (r : LookupRequest) : Json := .object [("service", r.service.toJson)]

/-- The address as a value. -/
def Address.toJson (a : Address) : Json :=
  .object [("host", .string a.host), ("port", .port a.port),
    ("api_types", Capability.listToJson a.capabilities)]

/-- The listing as a value; it is also the answer to a lookup. -/
def Listing.toJson (l : Listing) : Json :=
  .object [("service", l.service.toJson), ("addresses", .array (l.addresses.map (·.toJson)))]

/-- The answer as a value. -/
def ListResponse.toJson (r : ListResponse) : Json :=
  .object [("services", .array (r.services.map (·.toJson)))]

/-- The request as a value. -/
def ShutdownRequest.toJson (r : ShutdownRequest) : Json :=
  .object [("service_name", .string r.serviceName)]

/-- The request as a value. -/
def ProcessShutdownRequest.toJson (r : ProcessShutdownRequest) : Json :=
  .object (Json.member? "host" r.host ++ [("ports", .array (r.ports.map .port))])

/-- The message as a value. -/
def Ack.toJson (_ : Ack) : Json := .object []

/-- The error as a value. -/
def ErrorBody.toJson (e : ErrorBody) : Json := .object [("error", .string e.error)]

end Message

end ServiceRegistry
