/-
  ServiceRegistry.Metrics

  Counters and one gauge of the registry, and their lines in the text format for scrapers.
  What was never touched has no line.
-/
import ServiceRegistry.Inventory.Sweep

namespace ServiceRegistry

/-- What the registry has counted. -/
structure Metrics where
  registrations : Nat := 0
  probeFailures : Nat := 0
  /-- The reasons of all evictions. -/
  evictions : List EvictionReason := []
  /-- The number of instances when it was last looked at. -/
  instances : Option Nat := none
  deriving DecidableEq, Repr

namespace Metrics

/-- Counts a request that registered something new. -/
def countRegistration (m : Metrics) : Metrics := { m with registrations := m.registrations + 1 }

/-- Counts a probe that failed. -/
def countProbeFailure (m : Metrics) : Metrics := { m with probeFailures := m.probeFailures + 1 }

/-- Counts evictions by their reasons. -/
def countEvictions (m : Metrics) (es : List Eviction) : Metrics :=
  { m with evictions := m.evictions ++ es.map (·.reason) }

/-- Sets the number of instances. -/
def gauge (m : Metrics) (n : Nat) : Metrics := { m with instances := some n }

/-! ## Lines -/

/-- The line of a counter that was touched. -/
def counterLine (name : String) (n : Nat) : List String :=
  if n = 0 then [] else [name ++ " " ++ toString n]

/-- The name of the counter of evictions for a reason. -/
def evictionCounter (r : EvictionReason) : String :=
  "registrar_evictions_total\x7breason=\"" ++ r.name ++ "\"\x7d"

/-- The reasons in the order of their names. -/
def sortedReasons : List EvictionReason :=
  [.disabled, .excessiveFailures, .noRecentSuccess, .stale]

/-- All lines, sorted. -/
def lines (m : Metrics) : List String :=
  sortedReasons.flatMap (fun r => counterLine (evictionCounter r) (m.evictions.count r))
    ++ (m.instances.map fun n => "registrar_instances " ++ toString n).toList
    ++ counterLine "registrar_probe_failures_total" m.probeFailures
    ++ counterLine "registrar_registrations_total" m.registrations

end Metrics

end ServiceRegistry
