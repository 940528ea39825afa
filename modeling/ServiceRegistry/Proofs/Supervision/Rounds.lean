/-
  ServiceRegistry.Proofs.Supervision.Rounds

  A pass step by step. It is at rest until it reads the candidates; then it probes them one
  after the other, and the outcomes wait until all probes have been made; then it notes the
  outcomes in the same order; and when none is left it sweeps and is at rest again
  (`Progress`, `Advances`). Its other steps concern neither the inventory nor the fleet.

  The probes that an activity has made are read off its own steps (`probesIn`), as they were
  made, whoever else was at work in between.
-/
import ServiceRegistry.Proofs.World.Crew
import ServiceRegistry.Supervision.Pass

namespace ServiceRegistry.Supervision

open World

/-! ## Probes -/

/-- The probe made in a step, with the reaction to it. -/
def probeMade? (met left : World) : Option (Candidate × Reaction) :=
  if met.fleet.probed.length < left.fleet.probed.length then
    left.fleet.probed.getLast?.map fun c => (c, met.fleet.onProbe c)
  else none

/-- The probes made in some steps, in order. -/
def probesIn (steps : List (World × World)) : List (Candidate × Reaction) :=
  steps.filterMap fun (met, left) => probeMade? met left

theorem probeMade?_of_same {met left : World} (h : left.fleet = met.fleet) :
    probeMade? met left = none := by
  rw [probeMade?, h, if_neg (Nat.lt_irrefl _)]

theorem probeMade?_of_probe (c : Candidate) (w : World) :
    probeMade? w { w with fleet := (w.fleet.probe c).2 } = some (c, (w.fleet.probe c).1) := by
  have hlength : w.fleet.probed.length < (w.fleet.probe c).2.probed.length := by
    simp only [Fleet.probe, List.length_append, List.length_singleton, Nat.lt_add_one]
  rw [probeMade?, if_pos hlength]
  simp only [Fleet.probe, List.getLast?_concat, Option.map_some]

/-! ## Progress -/

/-- How far a pass has got: which candidates it has yet to probe, and which outcomes it has yet
    to note. -/
inductive Progress
  | resting
  | busy (waiting : List Candidate) (pending : List (Candidate × Reaction))

namespace Progress

/-- The candidates that have yet to be probed. -/
def waiting : Progress → List Candidate
  | resting => []
  | busy waiting _ => waiting

/-- The probes whose outcomes have yet to be noted. -/
def pending : Progress → List (Candidate × Reaction)
  | resting => []
  | busy _ pending => pending

end Progress

/-- What a step of a pass may do, and how far the pass has got after it. -/
inductive Advances (policy : Policy) : Progress → World → World → Progress → Prop
  | idle {g : Progress} {w w' : World} (hinventory : w'.inventory = w.inventory)
    (hfleet : w'.fleet = w.fleet) : Advances policy g w w' g
  | read {w w' : World} (hinventory : w'.inventory = w.inventory)
    (hfleet : w'.fleet = w.fleet) :
    Advances policy .resting w w' (.busy w.inventory.candidates [])
  | probe {c : Candidate} {r : Reaction} {waiting : List Candidate}
    {pending : List (Candidate × Reaction)} {w w' : World}
    (hinventory : w'.inventory = w.inventory) (hprobe : probeMade? w w' = some (c, r)) :
    Advances policy (.busy (c :: waiting) pending) w w' (.busy waiting (pending ++ [(c, r)]))
  | note {c : Candidate} {r : Reaction} {pending : List (Candidate × Reaction)} {w w' : World}
    (now : UInt64)
    (hinventory : w'.inventory = (w.inventory.noteProbe c.id (r == .succeeds) now).2)
    (hfleet : w'.fleet = w.fleet) :
    Advances policy (.busy [] ((c, r) :: pending)) w w' (.busy [] pending)
  | sweep {w w' : World} (now : UInt64)
    (hinventory : w'.inventory = (w.inventory.sweep policy now).2)
    (hfleet : w'.fleet = w.fleet) :
    Advances policy (.busy [] []) w w' .resting

/-- No step concerns the inventory or the fleet. -/
def Quiet {α : Type} (x : Work α) : Prop :=
  Follows (fun (_ : Unit) w w' _ => w'.inventory = w.inventory ∧ w'.fleet = w.fleet)
    (fun _ _ => True) () x

section

variable {α β : Type} {policy : Policy} {g : Progress}

theorem quiet_bind {x : Work α} {f : α → Work β} (hx : Quiet x) (hf : ∀ a, Quiet (f a)) :
    Quiet (x >>= f) :=
  follows_bind hx fun a _ _ => hf a

theorem quiet_pure (a : α) : Quiet (pure a : Work α) := trivial

theorem quiet_observe (f : World → α) : Quiet (.observe f) := fun _ => ⟨(), ⟨rfl, rfl⟩, trivial⟩

theorem quiet_change {f : World → World}
    (h : ∀ w, (f w).inventory = w.inventory ∧ (f w).fleet = w.fleet) : Quiet (.change f) :=
  fun w => ⟨(), h w, trivial⟩

theorem quiet_count (f : Metrics → Metrics) : Quiet (count f) := quiet_change fun _ => ⟨rfl, rfl⟩

theorem quiet_gauge : Quiet gauge := quiet_change fun _ => ⟨rfl, rfl⟩

theorem quiet_refreshScrapes (cfg : Settings) : Quiet (refreshScrapes cfg) :=
  quiet_bind (quiet_observe _) fun _ => quiet_change fun _ => ⟨rfl, rfl⟩

theorem advances_quiet {x : Work α} (h : Quiet x) :
    Follows (Advances policy) (fun _ g' => g' = g) g x := by
  induction x with
  | done a => rfl
  | step act next ih =>
    intro w
    obtain ⟨u, ⟨hinventory, hfleet⟩, hnext⟩ := h w
    exact ⟨g, .idle hinventory hfleet, ih w hnext⟩

/-! ## The steps of a pass -/

theorem advances_probeAll (cs : List Candidate) (pending : List (Candidate × Reaction)) :
    Follows (Advances policy) (fun probes g' => g' = .busy [] (pending ++ probes))
      (.busy cs pending) (probeAll cs) := by
  -- Along the candidates; each probe moves one of them to what is pending.
  induction cs generalizing pending with
  | nil => exact follows_pure (by rw [List.append_nil])
  | cons c cs ih =>
    have hprobe : Follows (Advances policy) (fun r g' => g' = .busy cs (pending ++ [(c, r)]))
        (.busy (c :: cs) pending) (probe c) :=
      follows_atomically fun w => ⟨_, .probe rfl (probeMade?_of_probe c w), rfl⟩
    refine follows_bind hprobe fun r g₁ h₁ => ?_
    subst h₁
    refine follows_bind (ih (pending ++ [(c, r)])) fun probes g₂ h₂ => follows_pure ?_
    rw [h₂, List.append_assoc, List.singleton_append]

theorem advances_noteProbe {c : Candidate} {r : Reaction} {success : Bool}
    (h : success = (r == .succeeds)) (pending : List (Candidate × Reaction)) :
    Follows (Advances policy) (fun _ g' => g' = .busy [] pending)
      (.busy [] ((c, r) :: pending)) (noteProbe c.id success) := by
  subst h
  refine follows_bind (advances_quiet (quiet_observe _)) fun now g₁ h₁ => ?_
  subst h₁
  exact follows_atomically fun w => ⟨_, .note now rfl rfl, rfl⟩

theorem advances_noteOutcomes (pending : List (Candidate × Reaction)) :
    Follows (Advances policy) (fun _ g' => g' = .busy [] []) (.busy [] pending)
      (noteOutcomes pending) := by
  induction pending with
  | nil => exact follows_pure rfl
  | cons p pending ih =>
    obtain ⟨c, r⟩ := p
    have hnote : Follows (Advances policy) (fun _ g' => g' = .busy [] pending)
        (.busy [] ((c, r) :: pending)) (noteOutcome c r) := by
      unfold noteOutcome
      split
      case isTrue h =>
        subst h
        exact follows_bind (advances_noteProbe rfl pending) fun _ g₁ h₁ => follows_pure h₁
      case isFalse h =>
        refine follows_bind (advances_quiet (quiet_count _)) fun _ g₁ h₁ => ?_
        subst h₁
        have hfailed : false = (r == .succeeds) := (beq_false_of_ne h).symm
        exact follows_bind (advances_noteProbe hfailed pending) fun _ g₂ h₂ => follows_pure h₂
    refine follows_bind hnote fun _ g₁ h₁ => ?_
    subst h₁
    exact ih

/-- From rest to rest. -/
theorem advances_pass (cfg : Settings) :
    Follows (Advances cfg.policy) (fun _ g' => g' = .resting) .resting (pass cfg) := by
  have hread : Follows (Advances cfg.policy) (fun cs g' => g' = .busy cs []) .resting
      (look (·.candidates)) :=
    follows_observe fun w => ⟨_, .read rfl rfl, rfl⟩
  refine follows_bind hread fun cs g₁ h₁ => ?_
  subst h₁
  refine follows_bind (advances_probeAll cs []) fun probes g₂ h₂ => ?_
  subst h₂
  refine follows_bind (advances_noteOutcomes _) fun _ g₃ h₃ => ?_
  subst h₃
  have hsweep : Follows (Advances cfg.policy) (fun _ g' => g' = .resting) (.busy [] [])
      (sweep cfg) := by
    refine follows_bind (advances_quiet (quiet_observe _)) fun now g h => ?_
    subst h
    exact follows_atomically fun w => ⟨_, .sweep now rfl rfl, rfl⟩
  refine follows_bind hsweep fun evicted g₄ h₄ => ?_
  subst h₄
  -- What remains counts, publishes and shows.
  refine advances_quiet (quiet_bind (quiet_count _) fun _ => ?_)
  dsimp only
  split
  · refine quiet_bind (quiet_refreshScrapes cfg) fun _ => ?_
    exact quiet_bind quiet_gauge fun _ => quiet_pure _
  · exact quiet_bind quiet_gauge fun _ => quiet_pure _

/-! ## Passes one after the other -/

/-- Some passes, each begun when the one before is complete. -/
def patrol (cfg : Settings) : Nat → Work Unit
  | 0 => pure ()
  | n + 1 => do
    let _ ← pass cfg
    patrol cfg n

theorem advances_patrol (cfg : Settings) (n : Nat) :
    Follows (Advances cfg.policy) (fun _ g' => g' = .resting) .resting (patrol cfg n) := by
  induction n with
  | zero => exact follows_pure rfl
  | succ n ih =>
    refine follows_bind (advances_pass cfg) fun _ g₁ h₁ => ?_
    subst h₁
    exact ih

end

end ServiceRegistry.Supervision
