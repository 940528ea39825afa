/-
  ServiceRegistry.World

  All that the activities of a registry share: the clocks, the inventory, the counters,
  the fleet and the files for the scraper. The operations on the inventory read the clock
  in a step of its own and use the reading in the next.
-/
import ServiceRegistry.Activity
import ServiceRegistry.Fleet
import ServiceRegistry.Inventory.Sweep
import ServiceRegistry.Metrics
import ServiceRegistry.Net.Ip
import ServiceRegistry.Scrape.Files

namespace ServiceRegistry

/-- What does not change while a registry runs. -/
structure Settings where
  policy : Policy := {}
  /-- The address published in place of loopback hosts. -/
  localIp : Option Net.Ip := none
  /-- The secret of the tokens that requests need. -/
  secret : Option String := none
  /-- Where the files for the scraper are, if there are any. -/
  layout : Option Scrape.Layout := none

/-- What the activities of a registry share. -/
structure World where
  /-- Milliseconds, for the inventory. -/
  clock : UInt64
  /-- Seconds of the Unix epoch, for tokens. -/
  unixTime : UInt64
  inventory : Inventory := .empty
  metrics : Metrics := {}
  fleet : Fleet := {}
  files : Scrape.FileSystem := {}
  /-- The groups published so far, the latest first. -/
  published : List (List ScrapeGroup) := []

namespace World

/-- An activity of a registry. -/
abbrev Work (α : Type) : Type := Activity World α

/-! ## Looking and counting -/

/-- Reads the clock. -/
def readClock : Work UInt64 := .observe (·.clock)

/-- Looks at the inventory. -/
def look {α : Type} (f : Inventory → α) : Work α := .observe fun w => f w.inventory

/-- Counts something. -/
def count (f : Metrics → Metrics) : Work Unit := .change fun w => { w with metrics := f w.metrics }

/-- Shows the number of instances on the gauge. -/
def gauge : Work Unit := .change fun w => { w with metrics := w.metrics.gauge w.inventory.size }

/-! ## Operations on the inventory -/

/-- A step on the inventory. -/
def onInventory {α : Type} (f : Inventory → α × Inventory) : Work α :=
  .atomically fun w => ((f w.inventory).1, { w with inventory := (f w.inventory).2 })

/-- A step on the inventory that changes nothing when it fails. -/
def tryInventory {α : Type} (f : Inventory → Except RegistryError (α × Inventory)) :
    Work (Except RegistryError α) :=
  onInventory fun inv =>
    match f inv with
    | .ok (a, inv) => (.ok a, inv)
    | .error e => (.error e, inv)

/-- Registers an endpoint of a service. -/
def enrol (service : Service) (endpoint : Endpoint) (capabilities : List Capability) :
    Work (Except RegistryError Enrolment) := do
  let now ← readClock
  tryInventory fun inv => inv.enrol service endpoint capabilities now

/-- Hides an instance. -/
def retire (id : InstanceId) : Work (Except RegistryError Instance) :=
  tryInventory fun inv => inv.retire id

/-- Removes an instance. -/
def withdraw (cfg : Settings) (id : InstanceId) : Work (Except RegistryError (List Eviction)) := do
  let now ← readClock
  tryInventory fun inv => inv.withdraw cfg.policy id now

/-- Removes the instances that listen on a host at one of some ports. -/
def withdrawPorts (cfg : Settings) (host : String) (ports : List UInt16) :
    Work (List Eviction) := do
  let now ← readClock
  onInventory fun inv => inv.withdrawPorts cfg.policy host ports now

/-- Removes the instances that the policy does not keep. -/
def sweep (cfg : Settings) : Work (List Eviction) := do
  let now ← readClock
  onInventory fun inv => inv.sweep cfg.policy now

/-- Notes the outcome of a probe. -/
def noteProbe (id : InstanceId) (success : Bool) : Work (Option UInt32) := do
  let now ← readClock
  onInventory fun inv => inv.noteProbe id success now

/-- How an instance fares. -/
def conditionOf (cfg : Settings) (id : InstanceId) : Work (Option Condition) := do
  let now ← readClock
  look fun inv => inv.conditionOf cfg.policy id now

/-! ## Calls to instances -/

/-- Probes an instance. -/
def probe (c : Candidate) : Work Reaction :=
  .atomically fun w => ((w.fleet.probe c).1, { w with fleet := (w.fleet.probe c).2 })

/-- Asks an instance to shut down. -/
def requestShutdown (e : Endpoint) : Work Reaction :=
  .atomically fun w =>
    ((w.fleet.requestShutdown e).1, { w with fleet := (w.fleet.requestShutdown e).2 })

/-! ## Publishing -/

/-- Writes the files for the scraper, as far as that succeeds, and remembers the groups. -/
def publish (cfg : Settings) (groups : List ScrapeGroup) : Work Unit :=
  .change fun w =>
    { w with
      files := match cfg.layout with
        | some layout => (layout.write groups w.files).2
        | none => w.files
      published := groups :: w.published }

/-- Publishes the groups of the inventory as it is now. -/
def refreshScrapes (cfg : Settings) : Work Unit := do
  let groups ← look (·.scrapeGroups)
  publish cfg groups

/-- Publishes the groups and shows the number of instances. -/
def refresh (cfg : Settings) : Work Unit := do
  refreshScrapes cfg
  gauge

end World

end ServiceRegistry
