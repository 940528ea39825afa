/-
  ServiceRegistry.Server.Respond

  From requests to responses: who may ask, what is asked for, and whether the body can be
  read. Where a secret is set, everything below the root of the registry needs a token.

  A body may have any size. The limit that the framework sets if nobody else does, two
  megabytes, and its response 413 to a longer body are left out.
-/
import ServiceRegistry.Access.Token
import ServiceRegistry.Net.Http
import ServiceRegistry.Server.Handlers
import ServiceRegistry.Server.Operation

namespace ServiceRegistry.Server

open Access (Permission)
open Json (Decoder Fault)
open Message Net World

/-! ## Access -/

/-- The token of an authorization header. -/
def bearerToken? (header : Option (List UInt8)) : Option String := do
  Text.dropBeginning? "Bearer " (← headerText? (← header))

/-- The status that refuses a request without sufficient permission. -/
def refusal? (secret : String) (permission : Permission) (now : UInt64)
    (authorization : Option (List UInt8)) : Option Nat :=
  match bearerToken? authorization with
  | none => some 401
  | some token =>
    match Access.verify secret token now with
    | .error _ => some 401
    | .ok claims => if claims.allows permission then none else some 403

/-! ## Bodies -/

/-- The place of a fault and what is wrong there. -/
def mismatchText (place : List Json.Step) (what : Json.Mismatch) : String :=
  let path := Json.placeText place
  if path = "" then what.message else path ++ ": " ++ what.message

/-- The response to a body that cannot be read. -/
def unreadable : Fault → Response
  | .broken _ => .text 400 "Failed to parse the request body as JSON"
  | .mismatch place what =>
    .text 422 ("Failed to deserialize the JSON body into the target type: "
      ++ mismatchText place what)

/-- The request announces a JSON body. -/
def announcesJson (r : Request) : Bool :=
  ((r.contentType.bind headerText?).bind MediaType.ofText?).any (·.isJson)

/-- Reads the body of a request, or gives the response that refuses it. What follows the
value in the body is ignored. -/
def readBody {α : Type} (decode : Decoder α) (r : Request) : Except Response α :=
  if announcesJson r then (decode.readFirst r.body).mapError unreadable
  else .error (.text 415 "Expected request with \x60Content-Type: application/json\x60")

/-! ## Answers -/

/-- The response to an operation that was carried out or refused. -/
def respondWith {α : Type} (encode : α → Json) : Except RegistryError α → Response
  | .ok a => .json 200 (encode a)
  | .error e => .json e.kind.status (ErrorBody.toJson ⟨e.message⟩)

/-- Reads the body, carries out the operation and writes the answer. -/
def serve {α β : Type} (decode : Decoder α) (encode : β → Json)
    (handler : α → Work (Except RegistryError β)) (r : Request) : Work Response :=
  match readBody decode r with
  | .error response => pure response
  | .ok a => do pure (respondWith encode (← handler a))

/-- Carries out an operation. -/
def operate (cfg : Settings) (peer : Option Ip) (r : Request) : Operation → Work Response
  | .register => serve RegisterRequest.decode RegisterResponse.toJson (register cfg peer) r
  | .deregister => serve DeregisterRequest.decode Ack.toJson (deregister cfg) r
  | .list => serve ListRequest.decode ListResponse.toJson list r
  | .target => serve TargetRequest.decode ListResponse.toJson target r
  | .lookup => serve LookupRequest.decode Listing.toJson lookup r
  | .shutdown => serve ShutdownRequest.decode Ack.toJson shutdown r
  | .processShutdown =>
    serve ProcessShutdownRequest.decode Ack.toJson (processShutdown cfg peer) r

/-! ## Requests -/

/-- The response that tells that the registry is up. -/
def healthResponse (method : String) : Response :=
  if method = "HEAD" then { Response.text 200 "OK" with body := [] } else .text 200 "OK"

/-- The methods of the resource, when the method of the request is not among them. -/
def methodMismatch? (r : Request) : Option String :=
  (Resource.ofPath? r.path).bind fun resource =>
    if resource.methods.contains r.method then none else some (",".intercalate resource.methods)

/-- The response to a request that may be made. -/
def dispatch (cfg : Settings) (peer : Option Ip) (r : Request) : Work Response :=
  match Resource.ofPath? r.path with
  | none => pure (.empty 404)
  | some resource =>
    if resource.methods.contains r.method then
      match resource with
      | .health => pure (healthResponse r.method)
      | .operation op => operate cfg peer r op
    else pure (.empty 405)

/-- The response to a request that may have to be refused. -/
def guarded (cfg : Settings) (peer : Option Ip) (r : Request) : Work Response :=
  match cfg.secret, requiredPermission? r.path with
  | some secret, some permission => do
    let now ← Activity.observe World.unixTime
    match refusal? secret permission now r.authorization with
    | some status => pure (.empty status)
    | none => dispatch cfg peer r
  | _, _ => dispatch cfg peer r

/-- The response to a request from a peer. -/
def respond (cfg : Settings) (peer : Option Ip) (r : Request) : Work Response := do
  let response ← guarded cfg (peer.map Ip.canonical) r
  pure { response with allow := methodMismatch? r }

end ServiceRegistry.Server
