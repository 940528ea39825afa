/-
  ServiceRegistry.RegistryError

  The errors of the registry itself, their texts, and the kind that tells whose fault
  they are.
-/
import ServiceRegistry.Instance

namespace ServiceRegistry

/-- Why the registry refuses a request. -/
inductive RegistryError
  | missingName
  | missingAddress
  | instanceNotFound (id : InstanceId)
  | serviceNotFound (name : String)
  | noPeerAddress
  | loopbackUnresolvable (host : String)
  deriving DecidableEq, Repr

/-- Kinds of errors. -/
inductive ErrorKind
  | validation
  | notFound
  | peerIdentity
  deriving DecidableEq, Repr

namespace RegistryError

/-- The text of an error. -/
def message : RegistryError → String
  | missingName => "Missing service name"
  | missingAddress => "Missing address"
  | instanceNotFound id => "Instance not found: " ++ toString id.toNat
  | serviceNotFound name => "Service not registered: " ++ name
  | noPeerAddress => "Cannot determine peer address"
  | loopbackUnresolvable host =>
    "Not registering at loopback address " ++ host ++ ": no local address available"

/-- The kind of an error. -/
def kind : RegistryError → ErrorKind
  | missingName | missingAddress => .validation
  | instanceNotFound _ | serviceNotFound _ => .notFound
  | noPeerAddress | loopbackUnresolvable _ => .peerIdentity

end RegistryError

/-- The status that answers a request refused with an error of this kind. -/
def ErrorKind.status : ErrorKind → Nat
  | validation => 400
  | notFound => 404
  | peerIdentity => 422

end ServiceRegistry
