/-
  ServiceRegistry.Client.Exchange

  Calls over a network that delivers a request and brings back its response, or fails to.
-/
import ServiceRegistry.Activity
import ServiceRegistry.Net.Http

namespace ServiceRegistry.Client

open Net

/-- A request and where it is sent. -/
structure Call where
  /-- Scheme, host and port. -/
  origin : String
  request : Request
  deriving DecidableEq, Repr

/-- The address of a call. -/
def Call.url (c : Call) : String := c.origin ++ c.request.target

/-- A network: what comes back from a call, if anything does. -/
abbrev Network (σ : Type) : Type := Call → Activity σ (Option Response)

/-- The network on which nobody answers. -/
def Network.silent (σ : Type) : Network σ := fun _ => pure none

/-- A header value: no controls but the tab. -/
def isHeaderValue (bytes : List UInt8) : Bool :=
  bytes.all fun b => (0x20 ≤ b && b != 0x7f) || b == 0x09

/-- The text of a body, without the mark that some texts begin with. -/
def bodyText (r : Response) : String :=
  let text := Text.ofUtf8Lenient r.body
  (Text.dropBeginning? "\ufeff" text).getD text

end ServiceRegistry.Client
