/-
  ServiceRegistry.Proofs.Server.Overtaking

  What the scraper has been told when the jobs of a registry have come to rest. Every job
  that changes the groups publishes them afterwards, so the groups of the inventory have been
  told at some time; they are the last ones told if the publications followed one another.
  A job that is slow between reading and publishing can be overtaken, though, and then its
  old groups stay with the scraper until something else changes.
-/
import ServiceRegistry.Proofs.Server.InStep
import ServiceRegistry.Proofs.Server.Jobs
import ServiceRegistry.Proofs.World.Refreshes

namespace ServiceRegistry.Server

open Message World

theorem settles_silently {α : Type} {x : Work α} (h : Settles x) : Settles (silently x) :=
  settles_bind h fun _ => settles_pure ()

/-- Every job that owes nothing at its beginning owes nothing at its end. -/
theorem settles_work (cfg : Settings) (job : Job) : Settles (job.work cfg) := by
  cases job with
  | register peer r => exact settles_silently (settles_register peer r)
  | deregister r => exact settles_silently (settles_deregister r)
  | list r => exact settles_silently (settles_list r)
  | target r => exact settles_silently (settles_target r)
  | lookup r => exact settles_silently (settles_lookup r)
  | shutdown r => exact settles_silently (settles_shutdown r)
  | processShutdown peer r => exact settles_silently (settles_processShutdown peer r)
  | pass => exact settles_silently settles_pass

/-- Whatever requests and passes are at work, and in whatever order their steps are taken:
    once every change of the groups has been followed by a publication of the same job, and
    none is under way, the groups of the inventory have been published. They were published
    last if there were never two publications under way at once. -/
theorem scrapeGroups_published (cfg : Settings) (w : World) (hinventory : w.inventory = .empty)
    (hpublished : w.published = []) (moves : List (Move Job))
    (hsettled : Settled (Job.work cfg) (Running.turns (Job.work cfg) { world := w } moves))
    (hidle : (Running.after (Job.work cfg) { world := w } moves).inFlight (Job.work cfg) = []) :
    let r := Running.after (Job.work cfg) { world := w } moves
    r.world.inventory.scrapeGroups ∈ [] :: r.world.published ∧
      ((∀ t ∈ Running.turns (Job.work cfg) { world := w } moves,
          ((t.after (Job.work cfg)).inFlight (Job.work cfg)).length ≤ 1) →
        r.world.published.headD [] = r.world.inventory.scrapeGroups) :=
  published_of_settled (settles_work cfg) hinventory hpublished hsettled hidle

/-- Two requests whose registrations alternate, and whose publications do not. -/
theorem scrapeGroups_published_alternating :
    let register (host : String) : Job := .register none ⟨.named "kv", [⟨host, 9000, [.status]⟩]⟩
    let moves : List (Move Job) :=
      [.start (register "node-1"), .start (register "node-2"), .proceed 0, .proceed 1,
        .proceed 1, .proceed 0] ++ List.replicate 4 (.proceed 1) ++ List.replicate 4 (.proceed 0)
    let w : World := { clock := 1000, unixTime := 0 }
    let r := Running.after (Job.work {}) { world := w } moves
    r.finished = true ∧
      r.world.published.headD [] = [⟨"kv", ["node-2:9000", "node-1:9000"]⟩] ∧
      r.world.published.headD [] = r.world.inventory.scrapeGroups := by
  intro register moves w
  have hfinished : (Running.after (Job.work {}) { world := w } moves).finished = true := by
    decide +kernel
  have hgroups : (Running.after (Job.work {}) { world := w } moves).world.published.headD []
      = [⟨"kv", ["node-2:9000", "node-1:9000"]⟩] := by decide +kernel
  have hone : ∀ t ∈ Running.turns (Job.work {}) { world := w } moves,
      ((t.after (Job.work {})).inFlight (Job.work {})).length ≤ 1 := by decide +kernel
  obtain ⟨hsettled, hidle⟩ := settled_of_finished (settles_work {}) hfinished
  exact ⟨hfinished, hgroups, (scrapeGroups_published {} w rfl rfl moves hsettled hidle).2 hone⟩

/-- The first of two requests reads the groups before the second registers its instance, and
    publishes them after the second has published its own. Nothing is under way any more, and
    the scraper does not know the second instance. -/
theorem scrapeGroups_overtaken :
    ¬ ∀ (w : World) (moves : List (Move Job)), w.inventory = .empty → w.published = [] →
      Settled (Job.work {}) (Running.turns (Job.work {}) { world := w } moves) →
      (Running.after (Job.work {}) { world := w } moves).inFlight (Job.work {}) = [] →
      (Running.after (Job.work {}) { world := w } moves).world.published.headD [] =
        (Running.after (Job.work {}) { world := w } moves).world.inventory.scrapeGroups := by
  intro hlast
  let register (host : String) : Job := .register none ⟨.named "kv", [⟨host, 9000, [.status]⟩]⟩
  -- The first registers and reads, the second does all its work, the first publishes.
  let moves : List (Move Job) :=
    [.start (register "node-1"), .start (register "node-2")] ++ List.replicate 4 (.proceed 0)
      ++ List.replicate 6 (.proceed 1) ++ List.replicate 2 (.proceed 0)
  let w : World := { clock := 1000, unixTime := 0 }
  have hfinished : (Running.after (Job.work {}) { world := w } moves).finished = true := by
    decide +kernel
  obtain ⟨hsettled, hidle⟩ := settled_of_finished (settles_work {}) hfinished
  have hpublished : (Running.after (Job.work {}) { world := w } moves).world.published.headD []
      = [⟨"kv", ["node-1:9000"]⟩] := by decide +kernel
  have hgroups : (Running.after (Job.work {}) { world := w } moves).world.inventory.scrapeGroups
      = [⟨"kv", ["node-1:9000", "node-2:9000"]⟩] := by decide +kernel
  have hequal := hlast w moves rfl rfl hsettled hidle
  rw [hpublished, hgroups] at hequal
  exact absurd hequal (by decide)

end ServiceRegistry.Server
