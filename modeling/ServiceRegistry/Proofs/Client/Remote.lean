/-
  ServiceRegistry.Proofs.Client.Remote

  A client whose calls reach a registry. Messages survive transport, so a call that is let in
  does what the operation does in the registry, and what the client reads is the answer; a
  call that is not let in changes nothing, and the client does not take it for one that found
  nothing (`runAlone_send`).
-/
import ServiceRegistry.Client.Registry
import ServiceRegistry.Proofs.Message.RoundTrip
import ServiceRegistry.Proofs.Server.Registering
import ServiceRegistry.Proofs.Text.Lenient

namespace ServiceRegistry

open Inventory (Event Moment)
open Json (Decoder)
open Message Net World

/-! ## Requests for operations -/

namespace Server

section

variable {α β : Type} {cfg : Settings} {peer : Option Ip} {r : Request} {op : Operation}
variable {decode : Decoder α} {encode : β → Json} {a : α}
variable {handler : Settings → α → Work (Except RegistryError β)}

/-- An operation is carried out by a handler, to which the secret makes no difference. -/
structure Handles (peer : Option Ip) (op : Operation) (decode : Decoder α) (encode : β → Json)
    (handler : Settings → α → Work (Except RegistryError β)) : Prop where
  operate_eq : ∀ cfg r, operate cfg peer r op = serve decode encode (handler cfg) r
  openly : ∀ cfg, handler { cfg with secret := none } = handler cfg

/-- Without a secret, a request for an operation that can be read is the handler at work. -/
theorem Handles.respond_open (h : Handles (peer.map Ip.canonical) op decode encode handler)
    (hsecret : cfg.secret = none) (hmethod : r.method = "POST") (hpath : r.path = op.path)
    (hread : readBody decode r = .ok a) :
    respond cfg peer r = (do pure (respondWith encode (← handler cfg a))) := by
  have hallowed : (Resource.operation op).methods.contains r.method = true := by
    rw [hmethod]
    rfl
  unfold respond guarded
  rw [hsecret]
  dsimp only
  unfold dispatch
  rw [hpath, ofPath?_path]
  dsimp only
  rw [if_pos hallowed, h.operate_eq, serve, hread, methodMismatch?_of_post hmethod hpath]
  dsimp only
  rw [bind_assoc]
  congr 1
  funext result
  cases result <;> rfl

theorem Handles.runAlone_respond_open
    (h : Handles (peer.map Ip.canonical) op decode encode handler) (hsecret : cfg.secret = none)
    (hmethod : r.method = "POST") (hpath : r.path = op.path) (hread : readBody decode r = .ok a)
    (drifts : Nat → Drift) (w : World) :
    let done := runAlone (handler cfg a) drifts w
    runAlone (respond cfg peer r) drifts w = (respondWith encode done.1, done.2) := by
  intro done
  rw [h.respond_open hsecret hmethod hpath hread, runAlone_bind_pure]

/-- A request for an operation that can be read is refused by its token, which changes nothing,
    or it is answered as the handler has it. Where a secret is set it has taken a step before. -/
theorem Handles.runAlone_respond (h : Handles (peer.map Ip.canonical) op decode encode handler)
    (hmethod : r.method = "POST") (hpath : r.path = op.path) (hread : readBody decode r = .ok a)
    (drifts : Nat → Drift) (w : World) :
    (∃ status, (status = 401 ∨ status = 403) ∧
      runAlone (respond cfg peer r) drifts w = (.empty status, (drifts 0).after w)) ∨
    ∃ skip w₁, w₁.inventory = w.inventory ∧
      let done := runAlone (handler cfg a) (fun n => drifts (n + skip)) w₁
      runAlone (respond cfg peer r) drifts w = (respondWith encode done.1, done.2) := by
  cases hsecret : cfg.secret with
  | none => exact .inr ⟨0, w, rfl, h.runAlone_respond_open hsecret hmethod hpath hread drifts w⟩
  | some secret =>
    have hpermission : requiredPermission? r.path = some op.permission := by
      rw [hpath]
      exact requiredPermission?_path op
    rw [respond_gated hsecret hpermission, runAlone]
    split
    case h_1 status hrefusal =>
      refine .inl ⟨status, refusal?_cases hrefusal, ?_⟩
      rw [methodMismatch?_of_post hmethod hpath]
      rfl
    case h_2 =>
      refine .inr ⟨1, (drifts 0).after w, rfl, ?_⟩
      have hnone : ({ cfg with secret := none } : Settings).secret = none := rfl
      have hopen := h.runAlone_respond_open hnone hmethod hpath hread (fun n => drifts (n + 1))
        ((drifts 0).after w)
      rw [h.openly] at hopen
      exact hopen

end

theorem handles_register (peer : Option Ip) :
    Handles peer .register RegisterRequest.decode RegisterResponse.toJson
      (fun cfg => register cfg peer) where
  operate_eq := fun _ _ => rfl
  openly := fun _ => rfl

theorem handles_deregister (peer : Option Ip) :
    Handles peer .deregister DeregisterRequest.decode Ack.toJson deregister where
  operate_eq := fun _ _ => rfl
  openly := fun _ => rfl

theorem handles_list (peer : Option Ip) :
    Handles peer .list ListRequest.decode ListResponse.toJson (fun _ => list) where
  operate_eq := fun _ _ => rfl
  openly := fun _ => rfl

theorem handles_target (peer : Option Ip) :
    Handles peer .target TargetRequest.decode ListResponse.toJson (fun _ => target) where
  operate_eq := fun _ _ => rfl
  openly := fun _ => rfl

theorem handles_lookup (peer : Option Ip) :
    Handles peer .lookup LookupRequest.decode Listing.toJson (fun _ => lookup) where
  operate_eq := fun _ _ => rfl
  openly := fun _ => rfl

theorem handles_shutdown (peer : Option Ip) :
    Handles peer .shutdown ShutdownRequest.decode Ack.toJson (fun _ => shutdown) where
  operate_eq := fun _ _ => rfl
  openly := fun _ => rfl

theorem handles_processShutdown (peer : Option Ip) :
    Handles peer .processShutdown ProcessShutdownRequest.decode Ack.toJson
      (fun cfg => processShutdown cfg peer) where
  operate_eq := fun _ _ => rfl
  openly := fun _ => rfl

/-- However a withdrawal ends, its event has taken place when it does, and nothing else. -/
theorem runAlone_deregister (cfg : Settings) (r : DeregisterRequest) (drifts : Nat → Drift)
    (w : World) :
    (runAlone (deregister cfg r) drifts w).2.inventory
      = (Moment.mk ⟨(drifts 0).clock, .withdraw r.instanceId⟩ w.inventory).after cfg.policy := by
  have hwithdraw : (runAlone (withdraw cfg r.instanceId) drifts w).2.inventory
      = (Moment.mk ⟨(drifts 0).clock, .withdraw r.instanceId⟩ w.inventory).after cfg.policy := by
    -- The clock is read in one step and used in the next.
    simp only [withdraw, readClock, tryInventory, onInventory, Activity.observe,
      Activity.atomically, Activity.step_bind, Activity.done_bind, runAlone, Moment.after,
      Event.perform, Drift.after, id]
    cases w.inventory.withdraw cfg.policy r.instanceId (drifts 0).clock <;> rfl
  rw [deregister, runAlone_bind]
  refine (runAlone_inventory cfg.policy ?_ _ _).trans hwithdraw
  -- What follows counts and publishes.
  cases (runAlone (withdraw cfg r.instanceId) drifts w).1 with
  | error e => exact steps_pure _
  | ok evicted =>
    exact steps_bind (steps_count _) fun _ => steps_bind (steps_refresh cfg) fun _ => steps_pure _

end Server

/-! ## Calls -/

namespace Client

open Server (Handles Operation)

/-- The network at whose end a registry answers every call, as coming from a peer. -/
def reaching (cfg : Settings) (peer : Option Ip) : Network World := fun call => do
  pure (some (← Server.respond cfg peer call.request))

section

variable {α β γ : Type} {cfg : Settings} {peer : Option Ip} {op : Operation}
variable {decode : Decoder α} {encode : β → Json} {message : Json} {a : α}
variable {handler : Settings → α → Work (Except RegistryError β)}

theorem readBody_call (h : Handle) (op : Operation) (hmessage : Conveys decode message a) :
    Server.readBody decode (h.call op message).request = .ok a := by
  have hjson : Server.announcesJson (h.call op message).request = true := by
    show ((headerText? (Text.utf8 jsonType)).bind MediaType.ofText?).any (·.isJson) = true
    decide +kernel
  rw [Server.readBody, if_pos hjson]
  show (decode.readFirst message.bytes).mapError _ = _
  rw [hmessage.readFirst]
  rfl

theorem path_call (h : Handle) (op : Operation) (message : Json) :
    (h.call op message).request.path = op.path := by
  show String.ofList (pathOf op.path.toList) = op.path
  cases op <;> decide

/-- A call is not let in, or it has done what the handler does and gives its answer. -/
theorem runAlone_send (h : Handle) (decodeAnswer : Decoder γ)
    (hhandles : Handles (peer.map Ip.canonical) op decode encode handler)
    (hmessage : Conveys decode message a) (drifts : Nat → Drift) (w : World) :
    let sent := runAlone (h.send (reaching cfg peer) op message decodeAnswer) drifts w
    (∃ e, sent.1 = .error e ∧ e.isNotFound = false ∧ sent.2.inventory = w.inventory) ∨
    ∃ skip w₁, w₁.inventory = w.inventory ∧
      let done := runAlone (handler cfg a) (fun n => drifts (n + skip)) w₁
      sent = (readResponse decodeAnswer (Server.respondWith encode done.1), done.2) := by
  intro sent
  by_cases hheader : (h.call op message).request.authorization.all isHeaderValue = true
  · have hsent : sent = (readResponse decodeAnswer
        (runAlone (Server.respond cfg peer (h.call op message).request) drifts w).1,
        (runAlone (Server.respond cfg peer (h.call op message).request) drifts w).2) := by
      show runAlone (h.send (reaching cfg peer) op message decodeAnswer) drifts w = _
      rw [Handle.send, if_pos hheader, reaching, runAlone_bind, runAlone_bind_pure]
      rfl
    rcases hhandles.runAlone_respond rfl (path_call h op message) (readBody_call h op hmessage)
      drifts w with ⟨status, hstatus, hrespond⟩ | ⟨skip, w₁, hmet, hrespond⟩
    · left
      rw [hsent, hrespond]
      rcases hstatus with rfl | rfl
      · exact ⟨.refused 401 _, rfl, rfl, rfl⟩
      · exact ⟨.refused 403 _, rfl, rfl, rfl⟩
    · refine .inr ⟨skip, w₁, hmet, ?_⟩
      rw [hsent, hrespond]
  · have hsent : sent = (.error .unreachable, w) := by
      show runAlone (h.send (reaching cfg peer) op message decodeAnswer) drifts w = _
      rw [Handle.send, if_neg hheader]
      rfl
    rw [hsent]
    exact .inl ⟨.unreachable, rfl, rfl, rfl⟩

/-- The text of an error that was written as an answer. -/
theorem refusalMessage_json (status : Nat) (e : ErrorBody) :
    refusalMessage (.json status e.toJson) = e.error := by
  obtain ⟨cs, hcs⟩ := Text.exists_text_member "error" e.error
  have hbody : Text.utf8 (String.ofList ('\x7b' :: cs)) = (Response.json status e.toJson).body :=
    hcs
  -- The text begins with a brace, so it has no mark to be dropped.
  have hmark : Text.dropBeginning? "\ufeff" (String.ofList ('\x7b' :: cs)) = none := by
    unfold Text.dropBeginning?
    simp only [String.toList_ofList]
    exact if_neg Bool.false_ne_true
  have htext : bodyText (.json status e.toJson) = String.ofList ('\x7b' :: cs) := by
    rw [bodyText, ← hbody, Text.ofUtf8Lenient_utf8, hmark]
    rfl
  have hread : ErrorBody.decode.readWhole (Text.utf8 (String.ofList ('\x7b' :: cs))) = .ok e := by
    rw [hcs]
    exact (conveys_errorBody e).readWhole
  rw [refusalMessage, htext, hread]

theorem refusalMessage_empty (status : Nat) : refusalMessage (.empty status) = "" := by
  show refusalMessage { status := 0 } = ""
  decide +kernel

/-- What a client is told of the outcome of an operation. -/
def reported : Except RegistryError β → Except ClientError β
  | .ok b => .ok b
  | .error e => .error (.refused e.kind.status e.message)

/-- The client reads what the handler has given, and its errors as they are. -/
theorem readResponse_respondWith {decodeAnswer : Decoder β}
    (hconveys : ∀ b, Conveys decodeAnswer (encode b) b) (result : Except RegistryError β) :
    readResponse decodeAnswer (Server.respondWith encode result) = reported result := by
  cases result with
  | ok b =>
    show (decodeAnswer.readWhole (encode b).bytes).mapError _ = _
    rw [(hconveys b).readWhole]
    rfl
  | error e =>
    -- The status of an error is not that of a success.
    have hstatus : isSuccess e.kind.status = false := by cases e <;> rfl
    have hrefused : ¬ isSuccess (Server.respondWith encode (.error e)).status = true := by
      show ¬ isSuccess e.kind.status = true
      rw [hstatus]
      exact Bool.false_ne_true
    rw [readResponse, if_neg hrefused, Server.respondWith, refusalMessage_json]
    rfl

/-- What the client takes for a value is the value that the handler has given. -/
theorem ok_of_readResponse {decodeAnswer : Decoder β} {result : Except RegistryError β} {b : β}
    (hconveys : ∀ b, Conveys decodeAnswer (encode b) b)
    (h : readResponse decodeAnswer (Server.respondWith encode result) = .ok b) :
    result = .ok b := by
  rw [readResponse_respondWith hconveys] at h
  cases result with
  | error e => cases h
  | ok c => rw [← Except.ok.inj h]

/-- A registration that the client takes for successful has filed all addresses, and the number
    that it is told belongs to the instance at the last of them. -/
theorem runAlone_register (h : Handle) {r : RegisterRequest} {drifts : Nat → Drift} {w : World}
    {answer : RegisterResponse}
    (hok : (runAlone (h.register (reaching cfg peer) r) drifts w).1 = .ok answer) :
    ∃ xs x, List.Forall₂ (Server.Fulfils cfg (peer.map Ip.canonical)) r.addresses xs ∧
      xs.getLast? = some x ∧
      let inv' := Inventory.after cfg.policy w.inventory (xs.map (·.event r.service))
      (runAlone (h.register (reaching cfg peer) r) drifts w).2.inventory = inv' ∧
        inv'.Houses r.service x.endpoint answer.instanceId := by
  rcases runAlone_send h RegisterResponse.decode (Server.handles_register _)
    (conveys_registerRequest r) drifts w with ⟨e, herror, -, -⟩ | ⟨skip, w₁, hmet, hsent⟩
  · rw [Handle.register, herror] at hok
    cases hok
  · rw [Handle.register, hsent] at hok ⊢
    have hvalue := ok_of_readResponse conveys_registerResponse hok
    obtain ⟨xs, x, hfulfils, -, -, hlast, -, hinventory, hhouses⟩ :=
      Server.runAlone_register hvalue
    rw [hmet] at hinventory hhouses
    exact ⟨xs, x, hfulfils, hlast, hinventory, hhouses⟩

variable (cfg peer) in
/-- A withdrawal of which the client is told no more than that nothing was found has taken
    place. -/
theorem runAlone_deregister (h : Handle) (id : InstanceId) (drifts : Nat → Drift) (w : World) :
    let sent := runAlone (h.deregister (reaching cfg peer) id) drifts w
    (∃ e, sent.1 = .error e ∧ e.isNotFound = false) ∨
    ∃ now, sent.2.inventory
      = (Moment.mk ⟨now, .withdraw id⟩ w.inventory).after cfg.policy := by
  intro sent
  rcases runAlone_send h Ack.decode (Server.handles_deregister _)
    (conveys_deregisterRequest ⟨id⟩) drifts w with ⟨e, herror, hfound, -⟩ | ⟨skip, w₁, hmet, hsent⟩
  · exact .inl ⟨e, herror, hfound⟩
  · right
    have hinventory := Server.runAlone_deregister cfg ⟨id⟩ (fun n => drifts (n + skip)) w₁
    rw [hmet] at hinventory
    exact ⟨_, (congrArg (·.2.inventory) hsent).trans hinventory⟩

end

end Client

end ServiceRegistry
