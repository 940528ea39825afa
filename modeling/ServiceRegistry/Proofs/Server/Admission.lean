/-
  ServiceRegistry.Proofs.Server.Admission

  Who is let in where a secret is set. The permission that a path requires and the operation
  that it leads to are found in two different tables; `requiredPermission?_path` is where they
  meet. A request for an operation is refused with 401 or 403 as soon as the time is known, in
  the first step and whatever the inventory holds. One that is let in goes on as the very
  activity that a registry without a secret carries out (`respond_gated`), so the two cannot be
  told apart by anything that happens later.
-/
import ServiceRegistry.Client.Registry
import ServiceRegistry.Server.Respond

namespace ServiceRegistry.Server

open Access (Claims Permission)
open Message Net World

/-! ## Permissions of operations -/

/-- What a request for an operation must be allowed. -/
def Operation.permission : Operation → Permission
  | register | deregister | processShutdown => .serviceRegister
  | shutdown => .serviceShutdown
  | list | target | lookup => .serviceRead

theorem requiredPermission?_path (op : Operation) :
    requiredPermission? op.path = some op.permission := by
  cases op <;> decide

theorem ofPath?_path (op : Operation) : Resource.ofPath? op.path = some (.operation op) := by
  cases op <;> decide

theorem requiredPermission?_of_outside {path : String}
    (h : ¬ registryRoot.toList <+: path.toList) : requiredPermission? path = none := by
  have houtside : registryRoot.toList.isPrefixOf path.toList = false := by
    rwa [Bool.eq_false_iff, ne_eq, List.isPrefixOf_iff_prefix]
  unfold requiredPermission? Text.dropBeginning?
  rw [houtside]
  rfl

theorem methodMismatch?_of_post {r : Request} {op : Operation} (hmethod : r.method = "POST")
    (hpath : r.path = op.path) : methodMismatch? r = none := by
  have hallowed : (Resource.operation op).methods.contains r.method = true := by
    rw [hmethod]
    rfl
  rw [methodMismatch?, hpath, ofPath?_path]
  simp only [Option.bind_some, hallowed, if_true]

/-! ## Tokens -/

theorem ok_of_toOption {ε α : Type} {x : Except ε α} {a : α} (h : x.toOption = some a) :
    x = .ok a := by
  cases x with
  | error e => cases h
  | ok b => exact congrArg Except.ok (Option.some.inj h)

/-- The header names a holder of claims by a token that is accepted at a time. -/
def Vouches (secret : String) (now : UInt64) (authorization : Option (List UInt8))
    (claims : Claims) : Prop :=
  ∃ token, bearerToken? authorization = some token ∧
    Access.verify secret token now = .ok claims

section

variable {secret : String} {now : UInt64} {authorization : Option (List UInt8)}
variable (permission : Permission)

theorem refusal?_of_not_vouches (h : ∀ claims, ¬ Vouches secret now authorization claims) :
    refusal? secret permission now authorization = some 401 := by
  unfold refusal?
  cases htoken : bearerToken? authorization with
  | none => rfl
  | some token =>
    cases hverify : Access.verify secret token now with
    | error e => simp only [hverify]
    | ok claims => exact absurd ⟨token, htoken, hverify⟩ (h claims)

theorem refusal?_of_vouches {claims : Claims} (h : Vouches secret now authorization claims) :
    refusal? secret permission now authorization =
      if claims.allows permission then none else some 403 := by
  obtain ⟨token, htoken, hverify⟩ := h
  unfold refusal?
  rw [htoken]
  simp only [hverify]

end

/-! ## With a secret and without -/

section

variable {cfg : Settings} {secret : String} {peer : Option Ip} {r : Request}

/-- Where no permission is required, a secret makes no difference. -/
theorem respond_ungated (hpermission : requiredPermission? r.path = none) :
    respond cfg peer r = respond { cfg with secret := none } peer r := by
  unfold respond guarded
  rw [hpermission]
  cases cfg.secret <;> rfl

/-- Where a permission is required, the first step decides by the time alone. Then the request
    is refused, or it goes on as it does where no secret is set. -/
theorem respond_gated (hsecret : cfg.secret = some secret) {permission : Permission}
    (hpermission : requiredPermission? r.path = some permission) :
    respond cfg peer r = .step id fun w =>
      match refusal? secret permission w.unixTime r.authorization with
      | some status => pure { Response.empty status with allow := methodMismatch? r }
      | none => respond { cfg with secret := none } peer r := by
  have hguarded : guarded cfg (peer.map Ip.canonical) r = .step id fun w =>
      match refusal? secret permission w.unixTime r.authorization with
      | some status => pure (.empty status)
      | none => dispatch cfg (peer.map Ip.canonical) r := by
    unfold guarded
    rw [hsecret, hpermission]
    rfl
  unfold respond
  rw [hguarded, Activity.step_bind]
  refine congrArg (Activity.step id) (funext fun w => ?_)
  cases refusal? secret permission w.unixTime r.authorization <;> rfl

/-- A request for an operation is refused with a status and nothing else, or not at all. -/
theorem run_respond_operation (hsecret : cfg.secret = some secret) {op : Operation}
    (hmethod : r.method = "POST") (hpath : r.path = op.path) (w : World) :
    (respond cfg peer r).run w =
      match refusal? secret op.permission w.unixTime r.authorization with
      | some status => (.empty status, w)
      | none => (respond { cfg with secret := none } peer r).run w := by
  have hpermission : requiredPermission? r.path = some op.permission := by
    rw [hpath]
    exact requiredPermission?_path op
  have hallow : methodMismatch? r = none := methodMismatch?_of_post hmethod hpath
  rw [respond_gated hsecret hpermission, hallow, Activity.run_step]
  rw [id_eq]
  cases refusal? secret op.permission w.unixTime r.authorization <;> rfl

end

/-! ## Admission -/

/-- In a registry with a secret. A request for an operation without an accepted token is
    answered with 401, and one whose claims do not allow what the operation requires with 403;
    both leave everything as it is, and what the answer says does not depend on the world. One
    whose claims do allow it, and any request outside the root of the registry, gets the
    response that it gets where no secret is set, and leaves the world as it does there. -/
theorem respond_of_secret (cfg : Settings) (secret : String) (hsecret : cfg.secret = some secret)
    (peer : Option Ip) (r : Request) (w : World) :
    let openly := (respond { cfg with secret := none } peer r).run w
    (∀ op : Operation, r.method = "POST" → r.path = op.path →
      ((∀ claims, ¬ Vouches secret w.unixTime r.authorization claims) →
        (respond cfg peer r).run w = (.empty 401, w)) ∧
      ∀ claims, Vouches secret w.unixTime r.authorization claims →
        (respond cfg peer r).run w =
          if claims.allows op.permission then openly else (.empty 403, w)) ∧
    (¬ registryRoot.toList <+: r.path.toList → (respond cfg peer r).run w = openly) := by
  intro openly
  constructor
  · intro op hmethod hpath
    rw [run_respond_operation hsecret hmethod hpath w]
    constructor
    · intro hnobody
      rw [refusal?_of_not_vouches op.permission hnobody]
    · intro claims hvouches
      rw [refusal?_of_vouches op.permission hvouches]
      cases claims.allows op.permission <;> rfl
  · intro houtside
    rw [respond_ungated (requiredPermission?_of_outside houtside)]

/-- A viewer may list services and may not register one; a request without a token is refused,
    and one for the state of health is not asked for a token. -/
theorem respond_of_secret_viewer :
    let token := "eyJ0eXAiOiJKV1QiLCJhbGciOiJIUzI1NiJ9."
      ++ "eyJzdWIiOiJvcHMiLCJyb2xlcyI6WyJWaWV3ZXIiXSwiZXhwIjo1MDAwfQ."
      ++ "MasPuQkdqDVZOpb9hNn8c3YmnhCxzsk8DafYH_6kkWE"
    let registry : Client.Handle := { origin := "http://registry", token := some token }
    let register := (registry.call .register (RegisterRequest.toJson
      ⟨⟨"kv", none⟩, [⟨"10.0.0.5", 9000, [.tcp]⟩]⟩)).request
    let list := (registry.call .list (ListRequest.toJson {})).request
    let health : Request := { method := "GET", target := "/health" }
    let cfg : Settings := { secret := some "secret" }
    let i : Instance := .enrolled 1 ⟨"10.0.0.6", 9000⟩ [.tcp] 0
    let w : World := { clock := 0, unixTime := 1000, inventory := ⟨[⟨⟨"kv", none⟩, [i]⟩], 1⟩ }
    (respond cfg none register).run w = (.empty 403, w) ∧
    (respond cfg none list).run w = (respond {} none list).run w ∧
    (respond cfg none { list with authorization := none }).run w = (.empty 401, w) ∧
    (respond cfg none health).run w = (respond {} none health).run w := by
  intro token registry register list health cfg i w
  let claims : Claims := ⟨"ops", [.viewer], 5000⟩
  have hvouches : Vouches "secret" w.unixTime register.authorization claims :=
    ⟨token, by decide +kernel, ok_of_toOption (by decide +kernel)⟩
  have hnobody : ∀ claims, ¬ Vouches "secret" w.unixTime none claims := by
    rintro claims ⟨token, htoken, -⟩
    cases htoken
  have hoperation (op : Operation) (r : Request) :=
    (respond_of_secret cfg "secret" rfl none r w).1 op
  have hregister := (hoperation .register register rfl (by decide)).2 claims hvouches
  have hlist := (hoperation .list list rfl (by decide)).2 claims hvouches
  rw [if_neg (by decide)] at hregister
  rw [if_pos (by decide)] at hlist
  refine ⟨hregister, hlist, ?_, ?_⟩
  · exact (hoperation .list _ rfl (by decide)).1 hnobody
  · exact (respond_of_secret cfg "secret" rfl none health w).2 (by decide)

end ServiceRegistry.Server
