/-
  ServiceRegistry.Supervision.Pass

  One round of supervision: probe every visible instance that answers probes, note the
  outcomes, and sweep. The inventory is entered in single steps, so requests may come
  between any two of them.
-/
import ServiceRegistry.World

namespace ServiceRegistry.Supervision

open World

/-- What a pass has found. -/
structure Report where
  probed : Nat
  failed : Nat
  evicted : List Eviction
  /-- Some probe was given up. -/
  waited : Bool
  deriving DecidableEq, Repr

/-- Probes candidates. -/
def probeAll : List Candidate → Work (List (Candidate × Reaction))
  | [] => pure []
  | c :: cs => do
    let r ← probe c
    let rs ← probeAll cs
    pure ((c, r) :: rs)

/-- Notes the outcome of one probe. -/
def noteOutcome (c : Candidate) (r : Reaction) : Work Unit := do
  if r = .succeeds then
    let _ ← noteProbe c.id true
  else
    count (·.countProbeFailure)
    let _ ← noteProbe c.id false

/-- Notes the outcomes of probes. -/
def noteOutcomes : List (Candidate × Reaction) → Work Unit
  | [] => pure ()
  | (c, r) :: rest => do
    noteOutcome c r
    noteOutcomes rest

/-- One round of supervision. -/
def pass (cfg : Settings) : Work Report := do
  let candidates ← look (·.candidates)
  let outcomes ← probeAll candidates
  noteOutcomes outcomes
  let evicted ← sweep cfg
  count (·.countEvictions evicted)
  if !evicted.isEmpty then
    refreshScrapes cfg
  gauge
  pure
    { probed := candidates.length
      failed := outcomes.countP (·.2 ≠ .succeeds)
      evicted
      waited := outcomes.any (·.2 == .hangs) }

end ServiceRegistry.Supervision
