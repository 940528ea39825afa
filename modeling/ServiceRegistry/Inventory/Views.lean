/-
  ServiceRegistry.Inventory.Views

  What readers are shown. Hidden instances appear in no view.
-/
import ServiceRegistry.Inventory.Basic
import ServiceRegistry.Text.Segments

namespace ServiceRegistry

/-- An instance to be probed. -/
structure Candidate where
  id : InstanceId
  serviceName : String
  endpoint : Endpoint
  deriving DecidableEq, Repr

/-- The addresses to be scraped under one name. -/
structure ScrapeGroup where
  name : String
  addresses : List String
  deriving DecidableEq, Repr

/-- The name under which a service is scraped: its name up to the first dot. -/
def scrapeName (serviceName : String) : String := Text.before '.' serviceName

namespace ScrapeGroup

/-- Adds an address under a name, to the group of this name or to a new one at the end. -/
def insert (name address : String) : List ScrapeGroup → List ScrapeGroup
  | [] => [⟨name, [address]⟩]
  | g :: gs =>
    if g.name = name then { g with addresses := g.addresses ++ [address] } :: gs
    else g :: insert name address gs

end ScrapeGroup

namespace Inventory

/-- The entries that accept a service, dormant ones included. -/
def lookup (inv : Inventory) (service : Service) : List Entry :=
  (inv.entries.filter (·.service.accepts service)).map (·.visible)

/-- The entries that show an instance, all or those with a name. -/
def listing (inv : Inventory) (name : Option String) : List Entry :=
  ((inv.entries.filter fun e => name.all (e.service.name == ·)).map (·.visible)).filter
    fun e => !e.instances.isEmpty

/-- The visible instances that answer probes. -/
def candidates (inv : Inventory) : List Candidate :=
  inv.entries.flatMap fun e =>
    (e.instances.filter fun i => i.isProbeable && i.isVisible).map fun i =>
      ⟨i.id, e.service.name, i.endpoint⟩

/-- The addresses of the candidates, grouped by the name under which they are scraped. -/
def scrapeGroups (inv : Inventory) : List ScrapeGroup :=
  inv.candidates.foldl
    (fun gs c => ScrapeGroup.insert (scrapeName c.serviceName) c.endpoint.text gs) []

end Inventory

end ServiceRegistry
