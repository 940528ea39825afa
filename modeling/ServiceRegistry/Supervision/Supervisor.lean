/-
  ServiceRegistry.Supervision.Supervisor

  Passes at an interval until they are stopped.
-/
import ServiceRegistry.Supervision.Loop
import ServiceRegistry.Supervision.Pass

namespace ServiceRegistry.Supervision

/-- How long to wait between passes and for the answer to a probe, in milliseconds. -/
structure Pace where
  period : Nat
  probeTimeout : Nat
  deriving DecidableEq, Repr

/-- A pass as work that takes some time: all probes are made at once, so it takes as long
as a probe that is given up, if there is one, and no time otherwise. -/
def passWork (cfg : Settings) (pace : Pace) (w : World) : Nat × World :=
  let (report, w) := (pass cfg).run w
  (if report.waited then pace.probeTimeout else 0, w)

/-- Makes passes until a signal stops them. -/
def supervise (cfg : Settings) (pace : Pace) (signals : List (Nat × Signal)) (w : World) : World :=
  (repeatUntil pace.period (passWork cfg pace) signals w).2

end ServiceRegistry.Supervision
