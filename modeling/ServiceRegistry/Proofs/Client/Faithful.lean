/-
  ServiceRegistry.Proofs.Client.Faithful

  A client as a handle on a registry elsewhere. A call is the handler of its operation at work,
  step for step, with the answer that the client is told; where a secret is set, one step before
  it decides by the token and the time whether the call is let in (`Ask.send_open`,
  `Ask.send_gated`). So nothing that happens to a call depends on whether it was made from
  afar, and what the client is told is what the handler has given, errors with their texts
  included.
-/
import ServiceRegistry.Proofs.Client.Remote
import ServiceRegistry.Proofs.Text.Segments

namespace ServiceRegistry.Client

open Json (Decoder)
open Message Net World
open Server (Handles Operation)

/-! ## Tokens -/

section

variable {text : String} (h : ∀ c ∈ text.toList, 32 ≤ c.toNat ∧ c.toNat < 127)

include h

theorem utf8_of_printable : Text.utf8 text = text.toList.map fun c => UInt8.ofNat c.toNat := by
  apply Text.utf8_of_ascii
  intro c hc
  have hc := h c hc
  omega

theorem byte_of_printable {c : Char} (hc : c ∈ text.toList) :
    (UInt8.ofNat c.toNat).toNat = c.toNat := by
  have hc := h c hc
  rw [UInt8.toNat_ofNat']
  omega

theorem printable_of_mem : ∀ b ∈ Text.utf8 text, 32 ≤ b.toNat ∧ b.toNat < 127 := by
  rw [utf8_of_printable h]
  intro b hb
  obtain ⟨c, hc, rfl⟩ := List.mem_map.1 hb
  rw [byte_of_printable h hc]
  exact h c hc

theorem isHeaderValue_utf8 : isHeaderValue (Text.utf8 text) = true := by
  rw [isHeaderValue, List.all_eq_true]
  intro b hb
  obtain ⟨hlow, hhigh⟩ := printable_of_mem h b hb
  have hb : 0x20 ≤ b ∧ b ≠ 0x7f := by
    refine ⟨UInt8.le_iff_toNat_le.2 hlow, ?_⟩
    rintro rfl
    exact absurd hhigh (by decide)
  simp [hb]

/-- Printable characters are read as they are. -/
theorem headerText?_utf8 : headerText? (Text.utf8 text) = some text := by
  have hallowed : ((Text.utf8 text).all fun b => (0x20 ≤ b && b < 0x7f) || b == 0x09) = true := by
    rw [List.all_eq_true]
    intro b hb
    obtain ⟨hlow, hhigh⟩ := printable_of_mem h b hb
    have hb : 0x20 ≤ b ∧ b < 0x7f :=
      ⟨UInt8.le_iff_toNat_le.2 hlow, UInt8.lt_iff_toNat_lt.2 hhigh⟩
    simp [hb]
  have hchars : (Text.utf8 text).map (fun b => Char.ofNat b.toNat) = text.toList := by
    rw [utf8_of_printable h, List.map_map]
    refine (List.map_congr_left fun c hc => ?_).trans (List.map_id _)
    rw [Function.comp_apply, byte_of_printable h hc, Char.ofNat_toNat]
    rfl
  rw [headerText?, if_pos hallowed, hchars, String.ofList_toList]

end

/-- The characters of a token are visible. -/
def Visible (token : String) : Prop := ∀ c ∈ token.toList, '!' ≤ c ∧ c ≤ '~'

instance : DecidablePred Visible := fun token => List.decidableBAll _ token.toList

section

variable {token : String} (h : Visible token)

include h

theorem printable_bearer : ∀ c ∈ ("Bearer " ++ token).toList, 32 ≤ c.toNat ∧ c.toNat < 127 := by
  have hscheme : ("Bearer ".toList.all fun c => 32 ≤ c.toNat ∧ c.toNat < 127) = true := by decide
  rw [List.all_eq_true] at hscheme
  rw [String.toList_append, List.forall_mem_append]
  refine ⟨fun c hc => of_decide_eq_true (hscheme c hc), fun c hc => ?_⟩
  obtain ⟨hlow, hhigh⟩ := h c hc
  have hlow : '!'.toNat ≤ c.toNat := hlow
  have hhigh : c.toNat ≤ '~'.toNat := hhigh
  exact ⟨Nat.le_trans (by decide) hlow, Nat.lt_of_le_of_lt hhigh (by decide)⟩

theorem bearerToken?_visible :
    Server.bearerToken? (some (Text.utf8 ("Bearer " ++ token))) = some token := by
  show (headerText? (Text.utf8 ("Bearer " ++ token))).bind (Text.dropBeginning? "Bearer ") = _
  rw [headerText?_utf8 (printable_bearer h), Option.bind_some]
  exact Text.dropBeginning?_eq_some_iff.2 rfl

end

/-! ## Operations -/

/-- What a client can ask for, with what it gets when that is granted. -/
inductive Ask : Type → Type
  | register (r : RegisterRequest) : Ask RegisterResponse
  | deregister (id : InstanceId) : Ask Ack
  | list (name : String) : Ask ListResponse
  | target (r : TargetRequest) : Ask ListResponse
  | lookup (s : Service) : Ask Listing
  | shutdown (name : String) : Ask Ack
  | processShutdown (r : ProcessShutdownRequest) : Ask Ack

namespace Ask

variable {β : Type}

/-- The operation asked for. -/
def operation : Ask β → Operation
  | register _ => .register
  | deregister _ => .deregister
  | list _ => .list
  | target _ => .target
  | lookup _ => .lookup
  | shutdown _ => .shutdown
  | processShutdown _ => .processShutdown

/-- The call that a client makes. -/
def send {σ : Type} (h : Handle) (net : Network σ) : Ask β → Activity σ (Except ClientError β)
  | register r => h.register net r
  | deregister id => h.deregister net id
  | list name => h.list net name
  | target r => h.target net r
  | lookup s => h.lookup net s
  | shutdown name => h.shutdown net name
  | processShutdown r => h.processShutdown net r

/-- What the registry does for it, as coming from a peer. -/
def handler (cfg : Settings) (peer : Option Ip) : Ask β → Work (Except RegistryError β)
  | register r => Server.register cfg peer r
  | deregister id => Server.deregister cfg ⟨id⟩
  | list name => Server.list ⟨name⟩
  | target r => Server.target r
  | lookup s => Server.lookup ⟨s⟩
  | shutdown name => Server.shutdown ⟨name⟩
  | processShutdown r => Server.processShutdown cfg peer r

/-- The two sides of an operation fit: the message sent is read as what was asked for, and the
    answer written is read as what was given. -/
structure Fits {α : Type} (peer : Option Ip) (ask : Ask β) (decode : Decoder α)
    (encode : β → Json) (serve : Settings → α → Work (Except RegistryError β)) (message : Json)
    (decodeAnswer : Decoder β) (a : α) : Prop where
  handles : Handles peer ask.operation decode encode serve
  conveys : Conveys decode message a
  answers : ∀ b, Conveys decodeAnswer (encode b) b
  send_eq : ∀ {σ : Type} (h : Handle) (net : Network σ),
    ask.send h net = h.send net ask.operation message decodeAnswer
  handler_eq : ∀ cfg, ask.handler cfg peer = serve cfg a

theorem exists_fits (peer : Option Ip) (ask : Ask β) :
    ∃ (α : Type) (decode : Decoder α) (encode : β → Json)
      (serve : Settings → α → Work (Except RegistryError β)) (message : Json)
      (decodeAnswer : Decoder β) (a : α),
      Fits peer ask decode encode serve message decodeAnswer a := by
  cases ask with
  | register r =>
    exact ⟨_, _, _, _, _, _, _, Server.handles_register peer, conveys_registerRequest r,
      conveys_registerResponse, fun _ _ => rfl, fun _ => rfl⟩
  | deregister id =>
    exact ⟨_, _, _, _, _, _, _, Server.handles_deregister peer, conveys_deregisterRequest ⟨id⟩,
      conveys_ack, fun _ _ => rfl, fun _ => rfl⟩
  | list name =>
    exact ⟨_, _, _, _, _, _, _, Server.handles_list peer, conveys_listRequest ⟨name⟩,
      conveys_listResponse, fun _ _ => rfl, fun _ => rfl⟩
  | target r =>
    exact ⟨_, _, _, _, _, _, _, Server.handles_target peer, conveys_targetRequest r,
      conveys_listResponse, fun _ _ => rfl, fun _ => rfl⟩
  | lookup s =>
    exact ⟨_, _, _, _, _, _, _, Server.handles_lookup peer, conveys_lookupRequest ⟨s⟩,
      conveys_listing _, fun _ _ => rfl, fun _ => rfl⟩
  | shutdown name =>
    exact ⟨_, _, _, _, _, _, _, Server.handles_shutdown peer, conveys_shutdownRequest ⟨name⟩,
      conveys_ack, fun _ _ => rfl, fun _ => rfl⟩
  | processShutdown r =>
    exact ⟨_, _, _, _, _, _, _, Server.handles_processShutdown peer,
      conveys_processShutdownRequest r, conveys_ack, fun _ _ => rfl, fun _ => rfl⟩

/-! ## Calls -/

section

variable {cfg : Settings} {peer : Option Ip} {h : Handle}

/-- Headers of visible tokens can be sent. -/
theorem header_sent (hvisible : ∀ token, h.token = some token → Visible token) (op : Operation)
    (message : Json) : (h.call op message).request.authorization.all isHeaderValue = true := by
  show (h.token.map fun t => Text.utf8 ("Bearer " ++ t)).all isHeaderValue = true
  cases htoken : h.token with
  | none => rfl
  | some token => exact isHeaderValue_utf8 (printable_bearer (hvisible token htoken))

theorem readResponse_empty {decodeAnswer : Decoder β} {status : Nat}
    (hstatus : status = 401 ∨ status = 403) :
    readResponse decodeAnswer (.empty status) = .error (.refused status "") := by
  have hrefused : ¬ isSuccess (Response.empty status).status = true := by
    rcases hstatus with rfl | rfl
    · exact Bool.false_ne_true
    · exact Bool.false_ne_true
  rw [readResponse, if_neg hrefused, refusalMessage_empty]
  rfl

/-- Without a secret a call is its handler at work, and the client is told the outcome. -/
theorem send_open (hsecret : cfg.secret = none)
    (hvisible : ∀ token, h.token = some token → Visible token) (ask : Ask β) :
    ask.send h (reaching cfg peer)
      = (do pure (reported (← ask.handler cfg (peer.map Ip.canonical)))) := by
  obtain ⟨α, decode, encode, serve, message, decodeAnswer, a, hfits⟩ :=
    ask.exists_fits (peer.map Ip.canonical)
  have hrespond := hfits.handles.respond_open hsecret rfl (path_call h ask.operation message)
    (readBody_call h ask.operation hfits.conveys)
  rw [hfits.send_eq, hfits.handler_eq, Handle.send, if_pos (header_sent hvisible _ _), reaching,
    hrespond]
  simp only [bind_assoc, pure_bind, readResponse_respondWith hfits.answers]

/-- With a secret there is one step before, in which the time is read. -/
theorem send_gated {secret : String} (hsecret : cfg.secret = some secret)
    (hvisible : ∀ token, h.token = some token → Visible token) (ask : Ask β) :
    ask.send h (reaching cfg peer) = .step id fun w =>
      match Server.refusal? secret ask.operation.permission w.unixTime
        (h.token.map fun t => Text.utf8 ("Bearer " ++ t)) with
      | some status => pure (.error (.refused status ""))
      | none => (do pure (reported (← ask.handler cfg (peer.map Ip.canonical)))) := by
  obtain ⟨α, decode, encode, serve, message, decodeAnswer, a, hfits⟩ :=
    ask.exists_fits (peer.map Ip.canonical)
  have hpermission : Server.requiredPermission? (h.call ask.operation message).request.path
      = some ask.operation.permission := by
    rw [path_call]
    exact Server.requiredPermission?_path ask.operation
  have hopen : ({ cfg with secret := none } : Settings).secret = none := rfl
  have hrespond := hfits.handles.respond_open hopen rfl (path_call h ask.operation message)
    (readBody_call h ask.operation hfits.conveys)
  rw [hfits.handles.openly] at hrespond
  rw [hfits.send_eq, hfits.handler_eq, Handle.send, if_pos (header_sent hvisible _ _), reaching,
    Server.respond_gated hsecret hpermission, hrespond]
  simp only [bind_assoc, pure_bind, Activity.step_bind]
  refine congrArg (Activity.step id) (funext fun w => ?_)
  have hallow : Server.methodMismatch? (h.call ask.operation message).request = none :=
    Server.methodMismatch?_of_post rfl (path_call h ask.operation message)
  have hheader : (h.call ask.operation message).request.authorization
      = h.token.map fun t => Text.utf8 ("Bearer " ++ t) := rfl
  rw [hallow, hheader]
  cases hrefusal : Server.refusal? secret ask.operation.permission w.unixTime
      (h.token.map fun t => Text.utf8 ("Bearer " ++ t)) with
  | some status =>
    exact congrArg Activity.done (readResponse_empty (Server.refusal?_cases hrefusal))
  | none => simp only [bind_assoc, pure_bind, readResponse_respondWith hfits.answers]

/-- The operation may be carried out: there is no secret, or the token is accepted and allows
    it. -/
def Granted (cfg : Settings) (h : Handle) (permission : Access.Permission) (now : UInt64) : Prop :=
  ∀ secret, cfg.secret = some secret → ∃ token claims, h.token = some token ∧
    Access.verify secret token now = .ok claims ∧ claims.allows permission = true

/-- The header of a call vouches for what its token says. -/
theorem vouches_token_iff (hvisible : ∀ token, h.token = some token → Visible token)
    {secret : String} {now : UInt64} {claims : Access.Claims} :
    Server.Vouches secret now (h.token.map fun t => Text.utf8 ("Bearer " ++ t)) claims ↔
      ∃ token, h.token = some token ∧ Access.verify secret token now = .ok claims := by
  unfold Server.Vouches
  cases htoken : h.token with
  | none =>
    constructor
    · rintro ⟨token, hbearer, -⟩
      cases hbearer
    · rintro ⟨token, hnone, -⟩
      cases hnone
  | some token => rw [Option.map_some, bearerToken?_visible (hvisible token htoken)]

/-- A call that is let in is the handler at work. -/
theorem run_send_of_granted (hvisible : ∀ token, h.token = some token → Visible token)
    (ask : Ask β) {w : World} (hgranted : Granted cfg h ask.operation.permission w.unixTime) :
    let done := (ask.handler cfg (peer.map Ip.canonical)).run w
    (ask.send h (reaching cfg peer)).run w = (reported done.1, done.2) := by
  intro done
  have hreported : (do pure (reported (← ask.handler cfg (peer.map Ip.canonical)))).run w
      = (reported done.1, done.2) := Activity.run_bind ..
  cases hsecret : cfg.secret with
  | none => rw [send_open hsecret hvisible, hreported]
  | some secret =>
    obtain ⟨token, claims, htoken, hverify, hallows⟩ := hgranted secret hsecret
    have hvouches := (vouches_token_iff hvisible).2 ⟨token, htoken, hverify⟩
    rw [send_gated hsecret hvisible, Activity.run_step, Server.refusal?_of_vouches _ hvouches,
      if_pos hallows]
    exact hreported

theorem run_send_of_refused {secret : String} (hsecret : cfg.secret = some secret)
    (hvisible : ∀ token, h.token = some token → Visible token) (ask : Ask β) {w : World}
    {status : Nat} (hrefusal : Server.refusal? secret ask.operation.permission w.unixTime
      (h.token.map fun t => Text.utf8 ("Bearer " ++ t)) = some status) :
    (ask.send h (reaching cfg peer)).run w = (.error (.refused status ""), w) := by
  rw [send_gated hsecret hvisible, Activity.run_step, hrefusal]
  rfl

end

end Ask

/-- A client is a faithful handle on a registry elsewhere. When no secret is set or its token
    grants the operation, a call leaves the registry as the handler leaves it and gives what the
    handler gives; an error of the handler comes with its status and its text, and counts as
    not found exactly if an instance or a service was not found. When a secret is set, a call
    without an accepted token is refused with 401 and one whose token does not allow the
    operation with 403, without a text, and both leave the registry as it is. -/
theorem send_faithful (cfg : Settings) (peer : Option Ip) (h : Handle)
    (hvisible : ∀ token, h.token = some token → Visible token) {β : Type} (ask : Ask β)
    (w : World) :
    let sent := (ask.send h (reaching cfg peer)).run w
    let done := (ask.handler cfg (peer.map Ip.canonical)).run w
    let permission := ask.operation.permission
    (Ask.Granted cfg h permission w.unixTime → sent.2 = done.2 ∧
      (∀ b, done.1 = .ok b → sent.1 = .ok b) ∧
      ∀ e, done.1 = .error e →
        let refused := ClientError.refused e.kind.status e.message
        sent.1 = .error refused ∧ (refused.isNotFound = true ↔
          (∃ id, e = .instanceNotFound id) ∨ ∃ name, e = .serviceNotFound name)) ∧
    ∀ secret, cfg.secret = some secret →
      ((∀ token claims, h.token = some token →
          Access.verify secret token w.unixTime ≠ .ok claims) →
        sent = (.error (.refused 401 ""), w)) ∧
      ∀ token claims, h.token = some token →
        Access.verify secret token w.unixTime = .ok claims → claims.allows permission = false →
        sent = (.error (.refused 403 ""), w) := by
  intro sent done permission
  refine ⟨fun hgranted => ?_, fun secret hsecret => ⟨fun hnobody => ?_, ?_⟩⟩
  · have hsent : sent = (reported done.1, done.2) := Ask.run_send_of_granted hvisible ask hgranted
    rw [hsent]
    refine ⟨rfl, fun b hb => ?_, fun e he => ?_⟩
    · rw [hb]
      rfl
    · rw [he]
      refine ⟨rfl, ?_⟩
      cases e <;> simp [ClientError.isNotFound, RegistryError.kind, ErrorKind.status]
  · apply Ask.run_send_of_refused hsecret hvisible
    apply Server.refusal?_of_not_vouches
    intro claims hvouches
    obtain ⟨token, htoken, hverify⟩ := (Ask.vouches_token_iff hvisible).1 hvouches
    exact hnobody token claims htoken hverify
  · intro token claims htoken hverify hallows
    have hvouches := (Ask.vouches_token_iff hvisible).2 ⟨token, htoken, hverify⟩
    apply Ask.run_send_of_refused hsecret hvisible
    rw [Server.refusal?_of_vouches _ hvouches, hallows]
    exact if_neg Bool.false_ne_true

/-- Where a secret is set, a viewer is given the addresses of a service that is known, and is told
    which one is not; it may not register one, and nobody may list services without a token. -/
theorem send_faithful_viewer :
    let token := "eyJ0eXAiOiJKV1QiLCJhbGciOiJIUzI1NiJ9."
      ++ "eyJzdWIiOiJvcHMiLCJyb2xlcyI6WyJWaWV3ZXIiXSwiZXhwIjo1MDAwfQ."
      ++ "MasPuQkdqDVZOpb9hNn8c3YmnhCxzsk8DafYH_6kkWE"
    let cfg : Settings := { secret := some "secret" }
    let viewer : Handle := { origin := "http://registry", token := some token }
    let nobody : Handle := { origin := "http://registry" }
    let net := reaching cfg none
    let i : Instance := .enrolled 1 ⟨"10.0.0.6", 9000⟩ [.tcp] 0
    let w : World := { clock := 0, unixTime := 1000, inventory := ⟨[⟨⟨"kv", none⟩, [i]⟩], 1⟩ }
    (viewer.lookup net ⟨"kv", none⟩).run w = (.ok ⟨⟨"kv", none⟩, [⟨"10.0.0.6", 9000, [.tcp]⟩]⟩, w) ∧
    (viewer.lookup net ⟨"café", none⟩).run w
      = (.error (.refused 404 "Service not registered: café"), w) ∧
    (viewer.register net ⟨⟨"kv", none⟩, [⟨"", 9000, [.tcp]⟩]⟩).run w
      = (.error (.refused 403 ""), w) ∧
    (nobody.list net "").run w = (.error (.refused 401 ""), w) := by
  intro token cfg viewer nobody net i w
  let claims : Access.Claims := ⟨"ops", [.viewer], 5000⟩
  have hverify : Access.verify "secret" token w.unixTime = .ok claims :=
    Server.ok_of_toOption (by decide +kernel)
  have hviewer : ∀ t, viewer.token = some t → Visible t := by
    rintro t ⟨⟩
    exact show Visible token by decide +kernel
  have hnobody : ∀ t, nobody.token = some t → Visible t := by
    rintro t ⟨⟩
  have hgranted : Ask.Granted cfg viewer .serviceRead w.unixTime := by
    rintro secret ⟨⟩
    exact ⟨token, claims, rfl, hverify, by decide⟩
  have hlookup (s : Service) := (send_faithful cfg none viewer hviewer (.lookup s) w).1 hgranted
  have hknown := hlookup ⟨"kv", none⟩
  have hunknown := hlookup ⟨"café", none⟩
  have hregister := (send_faithful cfg none viewer hviewer
    (.register ⟨⟨"kv", none⟩, [⟨"", 9000, [.tcp]⟩]⟩) w).2 "secret" rfl
  have hlist := (send_faithful cfg none nobody hnobody (.list "") w).2 "secret" rfl
  refine ⟨Prod.ext (hknown.2.1 _ rfl) hknown.1, Prod.ext (hunknown.2.2 _ rfl).1 hunknown.1, ?_, ?_⟩
  · exact hregister.2 token claims rfl hverify (by decide)
  · apply hlist.1
    rintro t c ⟨⟩

end ServiceRegistry.Client
