/-
  ServiceRegistry.PublishedHost

  The host under which an instance is published. An empty announcement means the address
  the request came from; a loopback host would be useless to other machines and gives way
  to the address of this one.
-/
import ServiceRegistry.Net.Ip
import ServiceRegistry.RegistryError

namespace ServiceRegistry

open Net

/-- The host by which every machine means itself. -/
def localName : String := "localhost"

/-- A host text that names the machine it is used on. -/
def isLoopbackHost (host : String) : Bool :=
  Text.sameIgnoringCase host localName || (Ip.ofText? host).any (·.isLoopback)

/-- The announced host, or the peer's address if nothing is announced. -/
def announcedOrPeer (announced : String) (peer : Option Ip) : Except RegistryError String :=
  if announced = "" then
    match peer with
    | some ip => .ok ip.text
    | none => .error .noPeerAddress
  else .ok announced

/-- The host to publish for an announced one. -/
def publishedHost (announced : String) (peer localIp : Option Ip) : Except RegistryError String :=
  match announcedOrPeer announced peer with
  | .error e => .error e
  | .ok host =>
    if isLoopbackHost host then
      match localIp with
      | some ip => .ok ip.text
      | none => .error (.loopbackUnresolvable host)
    else .ok host

end ServiceRegistry
