/-
  ServiceRegistry.Server.Handlers

  The operations of the registry on requests that have been read. Each is an activity: it
  enters the inventory in one step at a time, and other requests may come between.
-/
import ServiceRegistry.Message.Basic
import ServiceRegistry.PublishedHost
import ServiceRegistry.World

namespace ServiceRegistry.Server

open Message World

/-! ## Registration -/

/-- The hosts under which announced addresses are published. -/
def publishedEndpoints (cfg : Settings) (peer : Option Net.Ip) (addresses : List Announcement) :
    Except RegistryError (List Endpoint) :=
  addresses.mapM fun a => (publishedHost a.host peer cfg.localIp).map (⟨·, a.port⟩)

/-- Registers endpoints one after the other. -/
def enrolAll (service : Service) :
    List (Endpoint × List Capability) → Work (Except RegistryError (List Enrolment))
  | [] => pure (.ok [])
  | (endpoint, capabilities) :: rest => do
    match ← enrol service endpoint capabilities with
    | .error e => pure (.error e)
    | .ok r =>
      match ← enrolAll service rest with
      | .error e => pure (.error e)
      | .ok rs => pure (.ok (r :: rs))

/-- The number of the last instance registered. -/
def lastId (rs : List Enrolment) : InstanceId := (rs.getLast?.map (·.current.id)).getD 0

/-- Registers all addresses of a service. Every host is determined before anything is
registered, so that one bad address refuses the whole request. -/
def register (cfg : Settings) (peer : Option Net.Ip) (r : RegisterRequest) :
    Work (Except RegistryError RegisterResponse) :=
  if r.addresses = [] then pure (.error .missingAddress)
  else if r.service.name = "" then pure (.error .missingName)
  else match publishedEndpoints cfg peer r.addresses with
    | .error e => pure (.error e)
    | .ok endpoints => do
      match ← enrolAll r.service (endpoints.zip (r.addresses.map (·.capabilities))) with
      | .error e => pure (.error e)
      | .ok rs =>
        if rs.any (·.created) then
          count (·.countRegistration)
          refresh cfg
        pure (.ok ⟨lastId rs, endpoints⟩)

/-- Removes an instance. -/
def deregister (cfg : Settings) (r : DeregisterRequest) : Work (Except RegistryError Ack) := do
  match ← withdraw cfg r.instanceId with
  | .error e => pure (.error e)
  | .ok evicted =>
    count (·.countEvictions evicted)
    refresh cfg
    pure (.ok ⟨⟩)

/-- Removes what listens on a host at one of some ports. -/
def processShutdown (cfg : Settings) (peer : Option Net.Ip) (r : ProcessShutdownRequest) :
    Work (Except RegistryError Ack) :=
  match publishedHost (r.host.getD "") peer cfg.localIp with
  | .error e => pure (.error e)
  | .ok host => do
    let evicted ← withdrawPorts cfg host r.ports
    if !evicted.isEmpty then
      count (·.countEvictions evicted)
      refresh cfg
    pure (.ok ⟨⟩)

/-! ## Queries -/

/-- The name by which a list is asked for; the empty one asks for everything. -/
def ListRequest.filter (r : ListRequest) : Option String :=
  if r.name = "" then none else some r.name

/-- Lists services with their addresses. -/
def list (r : ListRequest) : Work (Except RegistryError ListResponse) := do
  let entries ← look (·.listing (ListRequest.filter r))
  pure (.ok (.ofEntries entries))

/-- Finds instances by capability, deploy path and name. -/
def target (r : TargetRequest) : Work (Except RegistryError ListResponse) := do
  let targets ← look (·.targets (.ofTexts r.capability r.path r.name))
  pure (.ok (.ofTargets targets))

/-- The answer to a lookup: the first entry that accepts the service names it, and the
addresses of all of them are given. -/
def lookupAnswer (name : String) (entries : List Entry) : Except RegistryError Listing :=
  let addresses := entries.flatMap fun e => (Listing.ofEntry e).addresses
  match entries, addresses with
  | e :: _, _ :: _ => .ok ⟨e.service, addresses⟩
  | _, _ => .error (.serviceNotFound name)

/-- Finds the addresses of a service. -/
def lookup (r : LookupRequest) : Work (Except RegistryError Listing) := do
  let entries ← look (·.lookup r.service)
  pure (lookupAnswer r.service.name entries)

/-! ## Shutdown -/

/-- Asks instances to shut down one after the other, whatever becomes of it. -/
def requestShutdowns : List Instance → Work Unit
  | [] => pure ()
  | i :: is => do
    let _ ← requestShutdown i.endpoint
    requestShutdowns is

/-- Asks every visible instance of a service to shut down. -/
def shutdown (r : ShutdownRequest) : Work (Except RegistryError Ack) := do
  match ← look (·.lookup (.named r.serviceName)) with
  | [] => pure (.error (.serviceNotFound r.serviceName))
  | entries =>
    requestShutdowns (entries.flatMap (·.instances))
    pure (.ok ⟨⟩)

end ServiceRegistry.Server
