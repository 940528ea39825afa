/-
  ServiceRegistry.Client.Registry

  A client of a registry: each operation sends one request and reads its response. An
  answer that cannot be read counts as no answer.
-/
import ServiceRegistry.Client.Address
import ServiceRegistry.Client.Exchange
import ServiceRegistry.Message.Decode
import ServiceRegistry.Message.Encode
import ServiceRegistry.Net.Status
import ServiceRegistry.Server.Operation

namespace ServiceRegistry.Client

open Json (Decoder)
open Message Net
open Server (Operation)

/-! ## Errors -/

/-- Why a call gives no value. -/
inductive ClientError
  | unreachable
  | refused (status : Nat) (message : String)
  deriving DecidableEq, Repr

namespace ClientError

/-- What was asked for is not there. -/
def isNotFound : ClientError → Bool
  | unreachable => false
  | refused status _ => status == 404

/-- The text of an error; that of a failed exchange depends on the network. -/
def message? : ClientError → Option String
  | unreachable => none
  | refused status message => some ("registry returned " ++ statusText status ++ ": " ++ message)

end ClientError

/-! ## Calls -/

/-- A registry and the token for it. -/
structure Handle where
  origin : String
  token : Option String := none
  deriving DecidableEq, Repr

/-- The handle of a registry with some address. -/
def Handle.ofAddress (address : String) (token : Option String) : Handle :=
  ⟨registryUrl address, token⟩

/-- The request for an operation. -/
def Handle.call (h : Handle) (op : Operation) (message : Json) : Call :=
  { origin := h.origin
    request :=
      { method := "POST", target := op.path
        contentType := some (Text.utf8 jsonType)
        authorization := h.token.map fun t => Text.utf8 ("Bearer " ++ t)
        body := message.bytes } }

/-- The message of a response that refuses a request. -/
def refusalMessage (r : Response) : String :=
  let text := bodyText r
  match ErrorBody.decode.readWhole (Text.utf8 text) with
  | .ok body => body.error
  | .error _ => text

/-- What a response says. -/
def readResponse {α : Type} (decode : Decoder α) (r : Response) : Except ClientError α :=
  if isSuccess r.status then (decode.readWhole r.body).mapError fun _ => .unreachable
  else .error (.refused r.status (refusalMessage r))

/-- Sends a request and reads the response. -/
def Handle.send {σ α : Type} (h : Handle) (net : Network σ) (op : Operation) (message : Json)
    (decode : Decoder α) : Activity σ (Except ClientError α) :=
  let call := h.call op message
  if call.request.authorization.all isHeaderValue then do
    match ← net call with
    | none => pure (.error .unreachable)
    | some r => pure (readResponse decode r)
  else pure (.error .unreachable)

/-! ## Operations -/

namespace Handle

variable {σ : Type} (h : Handle) (net : Network σ)

/-- Registers a service. -/
def register (r : RegisterRequest) : Activity σ (Except ClientError RegisterResponse) :=
  h.send net .register r.toJson RegisterResponse.decode

/-- Removes an instance. -/
def deregister (id : InstanceId) : Activity σ (Except ClientError Ack) :=
  h.send net .deregister (DeregisterRequest.toJson ⟨id⟩) Ack.decode

/-- Lists services, all of them if the name is empty. -/
def list (name : String) : Activity σ (Except ClientError ListResponse) :=
  h.send net .list (ListRequest.toJson ⟨name⟩) ListResponse.decode

/-- Finds instances. -/
def target (r : TargetRequest) : Activity σ (Except ClientError ListResponse) :=
  h.send net .target r.toJson ListResponse.decode

/-- Finds the addresses of a service. -/
def lookup (s : Service) : Activity σ (Except ClientError Listing) :=
  h.send net .lookup (LookupRequest.toJson ⟨s⟩) Listing.decodeAnswer

/-- Asks the instances of a service to shut down. -/
def shutdown (name : String) : Activity σ (Except ClientError Ack) :=
  h.send net .shutdown (ShutdownRequest.toJson ⟨name⟩) Ack.decode

/-- Tells that a process goes away. -/
def processShutdown (r : ProcessShutdownRequest) : Activity σ (Except ClientError Ack) :=
  h.send net .processShutdown r.toJson Ack.decode

end Handle

end ServiceRegistry.Client
