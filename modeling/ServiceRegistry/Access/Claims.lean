/-
  ServiceRegistry.Access.Claims

  What a token says about its holder. Times are seconds of the Unix epoch.
-/
import ServiceRegistry.Access.Role
import ServiceRegistry.Health

namespace ServiceRegistry.Access

/-- The holder of a token, its roles, and when the token expires. -/
structure Claims where
  subject : String
  roles : List Role
  expiry : UInt64
  deriving DecidableEq, Repr

/-- The greatest time. -/
def endOfTime : UInt64 := UInt64.ofNat (UInt64.size - 1)

/-- A later time, or the greatest if there is none so late. -/
def later (now span : UInt64) : UInt64 := if now > endOfTime - span then endOfTime else now + span

namespace Claims

/-- Claims that hold from now on for a span of time. -/
def lasting (subject : String) (roles : List Role) (now : UInt64) (span : Duration) : Claims :=
  ⟨subject, roles, later now span.seconds⟩

/-- Some role has the permission. -/
def allows (c : Claims) (p : Permission) : Bool := c.roles.any (·.grants p)

end Claims

end ServiceRegistry.Access
