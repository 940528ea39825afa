/-
  ServiceRegistry.Client.Address

  Where a registry is reached. An address with a scheme is taken as it is, without slashes
  at its end; a host with a port gets a scheme, and a bare host gets both.
-/
import ServiceRegistry.Text.Segments

namespace ServiceRegistry.Client

/-- The port of a registry that is given by its host alone. -/
def defaultPort : Nat := 5000

/-- The text between a scheme and a host. -/
def schemeMark : String := "://"

/-- The address as the beginning of the addresses of its operations. -/
def registryUrl (address : String) : String :=
  if Text.occursIn schemeMark.toList address.toList then Text.trimEnd '/' address
  else if address.toList.contains ':' then "http://" ++ address
  else "http://" ++ address ++ ":" ++ toString defaultPort

end ServiceRegistry.Client
