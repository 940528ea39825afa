/-
  ServiceRegistry.Proofs.Message.Kinds

  The wire format as a whole. A kind of message has values, a way to write them and a way to
  read them; for every kind the two agree, so what was written is read as it was, and a text
  that was read once is not changed by writing it anew.
-/
import ServiceRegistry.Proofs.Message.RoundTrip

namespace ServiceRegistry.Message

/-- The kinds of messages and of their parts. The same record goes by different titles where it
    is a part of different messages. -/
inductive Kind
  | capability
  | role
  | permission
  | evictionReason
  | condition
  | instanceId
  | service
  | serviceAddress
  | registeredAddress
  | claims
  | announcement
  | registerRequest
  | registerResponse
  | deregisterRequest
  | listRequest
  | instanceAddress
  | serviceListing
  | listResponse
  | targetRequest
  | lookupRequest
  | lookupAnswer
  | shutdownRequest
  | processShutdownRequest
  | ack
  | errorBody
  deriving DecidableEq, Repr

namespace Kind

/-- The values of a kind. -/
def Value : Kind → Type
  | capability => Capability
  | role => Access.Role
  | permission => Access.Permission
  | evictionReason => EvictionReason
  | condition => Condition
  | instanceId => InstanceId
  | service => Service
  | serviceAddress => Endpoint
  | registeredAddress => Endpoint
  | claims => Access.Claims
  | announcement => Announcement
  | registerRequest => RegisterRequest
  | registerResponse => RegisterResponse
  | deregisterRequest => DeregisterRequest
  | listRequest => ListRequest
  | instanceAddress => Address
  | serviceListing => Listing
  | listResponse => ListResponse
  | targetRequest => TargetRequest
  | lookupRequest => LookupRequest
  | lookupAnswer => Listing
  | shutdownRequest => ShutdownRequest
  | processShutdownRequest => ProcessShutdownRequest
  | ack => Ack
  | errorBody => ErrorBody

/-- How the values of a kind are written. -/
def encode : (k : Kind) → k.Value → Json
  | capability => Capability.toJson
  | role => Access.Role.toJson
  | permission => Access.Permission.toJson
  | evictionReason => EvictionReason.toJson
  | condition => Condition.toJson
  | instanceId => Json.word
  | service => Service.toJson
  | serviceAddress => Endpoint.toJson
  | registeredAddress => Endpoint.toJson
  | claims => Access.Claims.toJson
  | announcement => Announcement.toJson
  | registerRequest => RegisterRequest.toJson
  | registerResponse => RegisterResponse.toJson
  | deregisterRequest => DeregisterRequest.toJson
  | listRequest => ListRequest.toJson
  | instanceAddress => Address.toJson
  | serviceListing => Listing.toJson
  | listResponse => ListResponse.toJson
  | targetRequest => TargetRequest.toJson
  | lookupRequest => LookupRequest.toJson
  | lookupAnswer => Listing.toJson
  | shutdownRequest => ShutdownRequest.toJson
  | processShutdownRequest => ProcessShutdownRequest.toJson
  | ack => Ack.toJson
  | errorBody => ErrorBody.toJson

/-- How the values of a kind are read. -/
def decode : (k : Kind) → Json.Decoder k.Value
  | capability => Capability.decode
  | role => Access.Role.decode
  | permission => Access.Permission.decode
  | evictionReason => EvictionReason.decode
  | condition => Condition.decode
  | instanceId => Json.Decoder.uint64
  | service => Service.decode
  | serviceAddress => Endpoint.decode "ServiceAddress"
  | registeredAddress => Endpoint.decode "RegisteredAddress"
  | claims => Access.Claims.decode
  | announcement => Announcement.decode
  | registerRequest => RegisterRequest.decode
  | registerResponse => RegisterResponse.decode
  | deregisterRequest => DeregisterRequest.decode
  | listRequest => ListRequest.decode
  | instanceAddress => Address.decode
  | serviceListing => Listing.decode "ServiceListing"
  | listResponse => ListResponse.decode
  | targetRequest => TargetRequest.decode
  | lookupRequest => LookupRequest.decode
  | lookupAnswer => Listing.decodeAnswer
  | shutdownRequest => ShutdownRequest.decode
  | processShutdownRequest => ProcessShutdownRequest.decode
  | ack => Ack.decode
  | errorBody => ErrorBody.decode

/-- A text that can be read, written anew. -/
def rewrite (k : Kind) (text : List UInt8) : Except Json.Fault (List UInt8) :=
  (k.decode.readWhole text).map fun m => (k.encode m).bytes

theorem conveys (k : Kind) (m : k.Value) : Conveys k.decode (k.encode m) m := by
  cases k with
  | capability => exact conveys_capability m
  | role => exact conveys_role m
  | permission => exact conveys_permission m
  | evictionReason => exact conveys_evictionReason m
  | condition => exact conveys_condition m
  | instanceId => exact conveys_word m
  | service => exact conveys_service m
  | serviceAddress => exact conveys_endpoint _ m
  | registeredAddress => exact conveys_endpoint _ m
  | claims => exact conveys_claims m
  | announcement => exact conveys_announcement m
  | registerRequest => exact conveys_registerRequest m
  | registerResponse => exact conveys_registerResponse m
  | deregisterRequest => exact conveys_deregisterRequest m
  | listRequest => exact conveys_listRequest m
  | instanceAddress => exact conveys_address m
  | serviceListing => exact conveys_listing _ m
  | listResponse => exact conveys_listResponse m
  | targetRequest => exact conveys_targetRequest m
  | lookupRequest => exact conveys_lookupRequest m
  | lookupAnswer => exact conveys_listing _ m
  | shutdownRequest => exact conveys_shutdownRequest m
  | processShutdownRequest => exact conveys_processShutdownRequest m
  | ack => exact conveys_ack m
  | errorBody => exact conveys_errorBody m

theorem rewrite_encode (k : Kind) (m : k.Value) :
    k.rewrite (k.encode m).bytes = .ok (k.encode m).bytes := by
  rw [rewrite, (k.conveys m).readWhole]
  rfl

/-- What is written for a value of any kind is read as this value, as a whole text and at the
    beginning of one. A text that can be read may be written in many ways, but the one chosen
    for what was read says the same and is chosen again. -/
theorem decode_encode (k : Kind) :
    (∀ m, k.decode.readWhole (k.encode m).bytes = .ok m ∧
      k.decode.readFirst (k.encode m).bytes = .ok m) ∧
    ∀ text rewritten, k.rewrite text = .ok rewritten →
      k.decode.readWhole rewritten = k.decode.readWhole text ∧
      k.rewrite rewritten = .ok rewritten := by
  refine ⟨fun m => ⟨(k.conveys m).readWhole, (k.conveys m).readFirst⟩, ?_⟩
  intro text rewritten h
  -- What was read, of which `rewritten` is the text.
  cases hread : k.decode.readWhole text with
  | error fault =>
    rw [rewrite, hread] at h
    cases h
  | ok m =>
    rw [rewrite, hread] at h
    obtain rfl : (k.encode m).bytes = rewritten := Except.ok.inj h
    exact ⟨(k.conveys m).readWhole, k.rewrite_encode m⟩

/-- Members may stand in any order and some may be left out. An empty deploy path is kept apart
    from an absent one. -/
theorem decode_encode_service :
    let text := Text.utf8 "\x7b \"deploy_path\": \"\", \"name\": \"\\u00fc\", \"x\": [] \x7d"
    let rewritten := Text.utf8 "\x7b\"name\":\"ü\",\"deploy_path\":\"\"\x7d"
    service.rewrite text = .ok rewritten ∧
      service.decode.readWhole rewritten = .ok (Service.mk "ü" (some "")) ∧
      service.rewrite rewritten = .ok rewritten := by
  intro text rewritten
  have hrewrite : service.rewrite text = .ok rewritten := by decide +kernel
  have hread : service.decode.readWhole text = .ok (Service.mk "ü" (some "")) := by rfl
  obtain ⟨-, hanew⟩ := decode_encode service
  obtain ⟨hsame, hagain⟩ := hanew text rewritten hrewrite
  exact ⟨hrewrite, hsame.trans hread, hagain⟩

end Kind

end ServiceRegistry.Message
