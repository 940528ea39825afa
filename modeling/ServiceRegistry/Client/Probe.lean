/-
  ServiceRegistry.Client.Probe

  Calls to instances: whether one is alive and is the service it was registered as, and
  the request to shut down.
-/
import ServiceRegistry.Client.Exchange
import ServiceRegistry.Inventory.Views
import ServiceRegistry.Net.Status

namespace ServiceRegistry.Client

open Net

/-- Why a call to an instance fails. -/
inductive ProbeError
  | transport
  | status (code : Nat)
  | nameMismatch (expected reported : String)
  deriving DecidableEq, Repr

/-- The text of an error; that of a failed exchange depends on the network. -/
def ProbeError.message? : ProbeError → Option String
  | transport => none
  | status code => some ("unexpected status " ++ statusText code)
  | nameMismatch expected reported =>
    some ("service name mismatch: expected \"" ++ expected ++ "\", reported \"" ++ reported ++ "\"")

/-- Where instances tell their name. -/
def namePath : String := "/internal/service-info/name"

/-- Where instances are asked to shut down. -/
def shutdownPath : String := "/internal/pleaseshutdown"

/-- The host and port of an endpoint; a host with colons stands in brackets. -/
def authority (e : Endpoint) : String :=
  let host := if e.host.toList.contains ':' then "[" ++ e.host ++ "]" else e.host
  host ++ ":" ++ toString e.port.toNat

/-- The call to an endpoint. -/
def endpointCall (scheme : String) (e : Endpoint) (path : String) : Call :=
  { origin := scheme ++ "://" ++ authority e, request := { method := "GET", target := path } }

variable {σ : Type} (net : Network σ) (scheme : String)

/-- An instance answers with the name of its service. -/
def probe (c : Candidate) : Activity σ (Except ProbeError Unit) := do
  match ← net (endpointCall scheme c.endpoint namePath) with
  | none => pure (.error .transport)
  | some r =>
    let reported := bodyText r
    if !isSuccess r.status then pure (.error (.status r.status))
    else if reported ≠ c.serviceName then pure (.error (.nameMismatch c.serviceName reported))
    else pure (.ok ())

/-- Asks an instance to shut down; any answer will do. -/
def requestShutdown (e : Endpoint) : Activity σ (Except ProbeError Unit) := do
  match ← net (endpointCall scheme e shutdownPath) with
  | none => pure (.error .transport)
  | some _ => pure (.ok ())

end ServiceRegistry.Client
