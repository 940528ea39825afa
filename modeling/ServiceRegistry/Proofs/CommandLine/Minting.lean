/-
  ServiceRegistry.Proofs.CommandLine.Minting

  What a minted token is worth: its roles, until it expires. The time of expiry is computed
  with two additions that stop at the greatest number instead of wrapping around, so no token
  expires early because it was meant to hold for long. Whoever presents the token is let in to
  the operations whose permission one of the roles has, and to no other.
-/
import ServiceRegistry.CommandLine.Operator
import ServiceRegistry.Proofs.Access.Token
import ServiceRegistry.Proofs.Client.Faithful

namespace ServiceRegistry

/-! ## Expiry -/

namespace Access

theorem toNat_endOfTime : endOfTime.toNat = UInt64.size - 1 := by decide

theorem toNat_later (now span : UInt64) :
    (later now span).toNat = min (UInt64.size - 1) (now.toNat + span.toNat) := by
  have hspan := span.toNat_lt_size
  have hle : span ≤ endOfTime := by
    rw [UInt64.le_iff_toNat_le, toNat_endOfTime]
    omega
  have hsub : (endOfTime - span).toNat = UInt64.size - 1 - span.toNat := by
    rw [UInt64.toNat_sub_of_le _ _ hle, toNat_endOfTime]
  unfold later
  by_cases h : now > endOfTime - span
  · rw [if_pos h, toNat_endOfTime]
    rw [gt_iff_lt, UInt64.lt_iff_toNat_lt, hsub] at h
    omega
  · rw [if_neg h, UInt64.toNat_add]
    rw [gt_iff_lt, UInt64.lt_iff_toNat_lt, hsub] at h
    show (now.toNat + span.toNat) % UInt64.size = _
    rw [Nat.mod_eq_of_lt (by omega)]
    omega

/-- What has not expired is accepted. -/
theorem elapsed_le_leeway {expiry now : UInt64} (h : now ≤ expiry) :
    elapsed expiry now ≤ leeway := by
  have hzero : (elapsed expiry now).toNat = 0 := by
    rw [toNat_elapsed, Nat.sub_eq_zero_of_le (UInt64.le_iff_toNat_le.1 h)]
  rw [UInt64.le_iff_toNat_le, hzero]
  exact Nat.zero_le _

/-! ## Permissions -/

theorem Permission.mem_all (p : Permission) : p ∈ Permission.all := by
  cases p <;> decide

theorem Claims.allows_iff {c : Claims} {p : Permission} :
    c.allows p = true ↔ ∃ role ∈ c.roles, p ∈ role.permissions := by
  simp only [allows, Role.permissions, List.any_eq_true, List.mem_filter, Permission.mem_all,
    true_and]

end Access

namespace CommandLine

open Access (Claims Role)
open Net (Ip Request)
open Server (Operation respond)

theorem toNat_tokenSpan (hours : UInt64) :
    (tokenSpan hours).seconds.toNat = min (UInt64.size - 1) (3600 * hours.toNat) := by
  show (UInt64.ofNat (min (hours.toNat * 3600) (UInt64.size - 1))).toNat = _
  rw [UInt64.toNat_ofNat', Nat.mod_eq_of_lt, Nat.min_comm, Nat.mul_comm]
  exact Nat.lt_of_le_of_lt (Nat.min_le_right _ _) (by decide)

/-! ## Minted tokens -/

/-- When a token expires that is minted at a time for a number of hours. -/
def expiryOf (minted hours : UInt64) : Nat :=
  min (UInt64.size - 1) (minted.toNat + min (UInt64.size - 1) (3600 * hours.toNat))

theorem toNat_expiry (subject : String) (roles : List Role) (minted hours : UInt64) :
    (Claims.lasting subject roles minted (tokenSpan hours)).expiry.toNat
      = expiryOf minted hours := by
  rw [expiryOf, ← toNat_tokenSpan]
  exact Access.toNat_later minted _

/-- Whatever the subject, the roles, the hours and the secret. The command prints one token. Until
    it expires, a registry with the same secret reads from it the subject, the roles in their
    order and the time of expiry, and responds to its bearer as if there were no secret where
    one of the roles has the permission that the operation requires; elsewhere it refuses with
    403 and does nothing. -/
theorem minted_token_admitted {σ : Type} (registry : String) (bearer : Option String)
    (net : Client.Network σ) (s : σ) (minted : UInt64) (subject : String) (roles : List Role)
    (hours : UInt64) (secret : String) (cfg : Settings) (hsecret : cfg.secret = some secret)
    (peer : Option Ip) (w : World) (htime : w.unixTime.toNat ≤ expiryOf minted hours) :
    ∃ token claims,
      (OperatorOptions.run net minted ⟨registry, bearer, .token subject roles hours secret⟩).run s
        = (.success [token], s) ∧
      Access.verify secret token w.unixTime = .ok claims ∧
      claims.subject = subject ∧ claims.roles = roles ∧
      claims.expiry.toNat = expiryOf minted hours ∧
      ∀ (op : Operation) (r : Request), r.method = "POST" → r.path = op.path →
        r.authorization = some (Text.utf8 ("Bearer " ++ token)) →
        (respond cfg peer r).run w =
          if ∃ role ∈ roles, op.permission ∈ role.permissions then
            (respond { cfg with secret := none } peer r).run w
          else (.empty 403, w) := by
  let claims := Claims.lasting subject roles minted (tokenSpan hours)
  have hexpiry : claims.expiry.toNat = expiryOf minted hours :=
    toNat_expiry subject roles minted hours
  have hnow : w.unixTime ≤ claims.expiry := by
    rwa [UInt64.le_iff_toNat_le, hexpiry]
  have hverify : Access.verify secret (claims.sign secret) w.unixTime = .ok claims :=
    Access.verify_sign secret claims w.unixTime (Access.elapsed_le_leeway hnow)
  refine ⟨claims.sign secret, claims, rfl, hverify, rfl, rfl, hexpiry, ?_⟩
  intro op r hmethod hpath hauthorization
  have hbearer : Server.bearerToken? r.authorization = some (claims.sign secret) := by
    rw [hauthorization]
    exact Client.bearerToken?_visible (Access.visible_sign secret claims)
  rw [Server.run_respond_operation hsecret hmethod hpath,
    Server.refusal?_of_vouches op.permission ⟨_, hbearer, hverify⟩]
  by_cases hallowed : ∃ role ∈ roles, op.permission ∈ role.permissions
  · rw [if_pos (Claims.allows_iff.2 hallowed), if_pos hallowed]
  · rw [if_neg (mt Claims.allows_iff.1 hallowed), if_neg hallowed]

/-- A token for more hours than there are seconds left to count. It never expires, its holder
    may register services, and shutting one down is not for viewers and services. -/
theorem minted_token_admitted_for_good :
    let net : Client.Network Unit := fun _ => pure none
    let roles : List Role := [.viewer, .service]
    let hours : UInt64 := UInt64.ofNat (UInt64.size - 1)
    let cfg : Settings := { secret := some "secret" }
    let w : World := { clock := 0, unixTime := UInt64.ofNat (UInt64.size - 1) }
    cfg.secret = some "secret" ∧ w.unixTime.toNat ≤ expiryOf 1700000000 hours ∧
    ∃ token,
      (OperatorOptions.run net 1700000000
        ⟨"registry:5000", none, .token "\"kv\" für alle" roles hours "secret"⟩).run ()
          = (.success [token], ()) ∧
      ∀ r : Request, r.method = "POST" →
        r.authorization = some (Text.utf8 ("Bearer " ++ token)) →
        (r.path = Operation.register.path →
          (respond cfg none r).run w = (respond {} none r).run w) ∧
        (r.path = Operation.shutdown.path → (respond cfg none r).run w = (.empty 403, w)) := by
  intro net roles hours cfg w
  have htime : w.unixTime.toNat ≤ expiryOf 1700000000 hours := by decide
  obtain ⟨token, -, hprinted, -, -, -, -, hadmitted⟩ :=
    minted_token_admitted "registry:5000" none net () 1700000000 "\"kv\" für alle" roles hours
      "secret" cfg rfl none w htime
  refine ⟨rfl, htime, token, hprinted, fun r hmethod hauthorization => ⟨fun hpath => ?_,
    fun hpath => ?_⟩⟩
  · rw [hadmitted .register r hmethod hpath hauthorization]
    exact if_pos (by decide)
  · rw [hadmitted .shutdown r hmethod hpath hauthorization]
    exact if_neg (by decide)

end CommandLine

end ServiceRegistry
