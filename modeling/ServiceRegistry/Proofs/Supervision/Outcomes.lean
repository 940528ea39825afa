/-
  ServiceRegistry.Proofs.Supervision.Outcomes

  The outcomes of probes reach the instances that were probed. A pass looks at the inventory
  once, then probes, and only then notes the outcomes, each in a step of its own; in between
  the instances may be registered again, withdrawn, swept away and registered anew.

    * What a pass does, step by step, whatever others do: `collects_pass`.
    * A number still means what it meant when the candidates were read: `Denotes`.
    * An outcome changes the instance with that number and nothing else: `Denotes.applied`.

  All three meet in `pass_applies_outcomes`.
-/
import ServiceRegistry.Proofs.Inventory.Candidates
import ServiceRegistry.Proofs.Inventory.Identity
import ServiceRegistry.Proofs.World.Interlude
import ServiceRegistry.Supervision.Pass

namespace ServiceRegistry.Supervision

open Inventory (Event Moment Replaced)
open World

/-! ## What a pass does -/

/-- The outcome of a probe, and the reading of the clock at which it is noted. -/
structure Outcome where
  candidate : Candidate
  reaction : Reaction
  now : UInt64

/-- The probe was answered. -/
def Outcome.success (o : Outcome) : Bool := o.reaction == .succeeds

/-- What a step of a pass may be about. -/
inductive Mark
  /-- The candidates are read. -/
  | snapshot (candidates : List Candidate)
  | probed (candidate : Candidate) (reaction : Reaction)
  | noted (outcome : Outcome)
  | swept (now : UInt64)

/-- A step from one world to another does what the mark says. -/
def Mark.Does (policy : Policy) : Mark → World → World → Prop
  | snapshot cs, w, w' => w.inventory.candidates = cs ∧ w'.inventory = w.inventory
  | probed c r, w, w' => (w.fleet.probe c).1 = r ∧ w'.inventory = w.inventory
  | noted o, w, w' =>
    w'.inventory = (w.inventory.noteProbe o.candidate.id o.success o.now).2
  | swept now, w, w' => w'.inventory = (w.inventory.sweep policy now).2

section

variable {policy : Policy} {ms : List Mark}

theorem collects_probeAll (cs : List Candidate) :
    Follows (Collects (Mark.Does policy))
      (fun probes ms' => probes.map (·.1) = cs ∧
        ms' = ms ++ probes.map fun p => .probed p.1 p.2)
      ms (probeAll cs) := by
  -- Along the candidates, with a mark more for each.
  induction cs generalizing ms with
  | nil => exact follows_pure ⟨rfl, (List.append_nil ms).symm⟩
  | cons c cs ih =>
    have hprobe : Follows (Collects (Mark.Does policy))
        (fun r ms' => ms' = ms ++ [.probed c r]) ms (probe c) :=
      follows_atomically fun w => ⟨_, .inr ⟨.probed c _, rfl, rfl, rfl⟩, rfl⟩
    refine follows_bind hprobe fun r ms₁ h₁ => ?_
    refine follows_bind ih fun probes ms₂ h₂ => follows_pure ?_
    obtain ⟨hcandidates, h₂⟩ := h₂
    refine ⟨by rw [List.map_cons, hcandidates], ?_⟩
    rw [h₂, h₁, List.append_assoc, List.map_cons]
    rfl

theorem collects_noteProbe {c : Candidate} {r : Reaction} {success : Bool}
    (h : success = (r == .succeeds)) :
    Follows (Collects (Mark.Does policy)) (fun _ ms' => ∃ now, ms' = ms ++ [.noted ⟨c, r, now⟩])
      ms (noteProbe c.id success) := by
  subst h
  refine follows_bind (collects_of_steps policy steps_readClock) fun now ms₁ h₁ => ?_
  subst h₁
  exact follows_atomically fun w => ⟨_, .inr ⟨.noted ⟨c, r, now⟩, rfl, rfl⟩, now, rfl⟩

theorem collects_noteOutcome (c : Candidate) (r : Reaction) :
    Follows (Collects (Mark.Does policy)) (fun _ ms' => ∃ now, ms' = ms ++ [.noted ⟨c, r, now⟩])
      ms (noteOutcome c r) := by
  unfold noteOutcome
  split
  case isTrue h =>
    subst h
    exact follows_bind (collects_noteProbe rfl) fun _ ms₁ h₁ => follows_pure h₁
  case isFalse h =>
    -- A failure is counted first, outside of the inventory.
    have hfailed : false = (r == .succeeds) := (beq_false_of_ne h).symm
    refine follows_bind (collects_of_steps policy (steps_count _)) fun _ ms₁ h₁ => ?_
    subst h₁
    exact follows_bind (collects_noteProbe hfailed) fun _ ms₂ h₂ => follows_pure h₂

theorem collects_noteOutcomes (probes : List (Candidate × Reaction)) :
    Follows (Collects (Mark.Does policy))
      (fun _ ms' => ∃ outcomes : List Outcome,
        outcomes.map (fun o => (o.candidate, o.reaction)) = probes ∧
          ms' = ms ++ outcomes.map .noted)
      ms (noteOutcomes probes) := by
  induction probes generalizing ms with
  | nil => exact follows_pure ⟨[], rfl, (List.append_nil ms).symm⟩
  | cons p probes ih =>
    obtain ⟨c, r⟩ := p
    refine follows_bind (collects_noteOutcome c r) fun _ ms₁ h₁ => ?_
    obtain ⟨now, rfl⟩ := h₁
    refine ih.mono fun _ ms₂ h₂ => ?_
    obtain ⟨outcomes, rfl, h₂⟩ := h₂
    refine ⟨⟨c, r, now⟩ :: outcomes, rfl, ?_⟩
    rw [h₂, List.append_assoc]
    rfl

/-- A pass reads the candidates, probes each of them, notes each outcome, and sweeps. The
    rest of it leaves the inventory alone. -/
theorem collects_pass (cfg : Settings) :
    Follows (Collects (Mark.Does cfg.policy))
      (fun _ ms' => ∃ (outcomes : List Outcome) (now : UInt64),
        ms' = .snapshot (outcomes.map (·.candidate))
          :: outcomes.map (fun o => .probed o.candidate o.reaction)
          ++ outcomes.map .noted ++ [.swept now])
      [] (pass cfg) := by
  have hsnapshot : Follows (Collects (Mark.Does cfg.policy))
      (fun cs ms' => ms' = [.snapshot cs]) [] (look (·.candidates)) :=
    follows_observe fun w => ⟨_, .inr ⟨.snapshot _, rfl, rfl, rfl⟩, rfl⟩
  refine follows_bind hsnapshot fun cs ms₁ h₁ => ?_
  refine follows_bind (collects_probeAll cs) fun probes ms₂ h₂ => ?_
  obtain ⟨hcandidates, h₂⟩ := h₂
  refine follows_bind (collects_noteOutcomes probes) fun _ ms₃ h₃ => ?_
  obtain ⟨outcomes, hprobes, h₃⟩ := h₃
  have hsweep : Follows (Collects (Mark.Does cfg.policy))
      (fun _ ms' => ∃ now, ms' = ms₃ ++ [.swept now]) ms₃ (sweep cfg) := by
    refine follows_bind (collects_of_steps cfg.policy steps_readClock) fun now ms h => ?_
    subst h
    exact follows_atomically fun w => ⟨_, .inr ⟨.swept now, rfl, rfl⟩, now, rfl⟩
  refine follows_bind hsweep fun evicted ms₄ h₄ => ?_
  obtain ⟨now, h₄⟩ := h₄
  -- What remains counts, publishes and shows, all outside of the inventory.
  refine (collects_of_steps cfg.policy ?_).mono fun _ ms₅ h₅ => ⟨outcomes, now, ?_⟩
  · refine steps_bind (steps_count _) fun _ => ?_
    dsimp only
    split
    · refine steps_bind (steps_refreshScrapes cfg) fun _ => ?_
      exact steps_bind steps_gauge fun _ => steps_pure _
    · exact steps_bind steps_gauge fun _ => steps_pure _
  · rw [h₅, h₄, h₃, h₂, h₁, ← hcandidates, ← hprobes]
    simp only [List.map_map, Function.comp_def, List.singleton_append]

end

/-! ## What a candidate stands for -/

/-- Whatever is stored under the number of a candidate has the name, the endpoint and the
    capability that the candidate was read with. -/
def Denotes (inv : Inventory) (c : Candidate) : Prop :=
  ∃ s i, inv.Bears s i ∧ i.id = c.id ∧ s.name = c.serviceName ∧ i.endpoint = c.endpoint ∧
    i.isProbeable = true

/-- What noting an outcome does to an inventory. -/
structure Applied (o : Outcome) (inv inv' : Inventory) : Prop where
  /-- The instance probed has gone. -/
  gone : o.candidate.id ∉ inv.ids → inv' = inv
  /-- The instance probed is there, and it alone is changed. -/
  there : o.candidate.id ∈ inv.ids → ∃ s i, (s, i) ∈ inv.stored ∧ i.id = o.candidate.id ∧
    s.name = o.candidate.serviceName ∧ i.endpoint = o.candidate.endpoint ∧
    i.isProbeable = true ∧ Replaced i (i.probed o.success o.now) inv.entries inv'.entries ∧
    inv'.lastId = inv.lastId

section

variable {policy : Policy} {inv : Inventory} {c : Candidate}

theorem denotes_of_mem_candidates (hw : inv.WellFormed) (h : c ∈ inv.candidates) :
    Denotes inv c := by
  obtain ⟨s, i, hi, hprobeable, -, rfl⟩ := Inventory.mem_candidates.1 h
  exact ⟨s, i, Inventory.bears_of_mem hw hi, rfl, rfl, rfl, hprobeable⟩

theorem Denotes.after {m : Moment} (h : Denotes m.met c) (hm : m.Sound policy) :
    Denotes (m.after policy) c := by
  obtain ⟨s, i, hbears, hrest⟩ := h
  exact ⟨s, i, hbears.after hm, hrest⟩

theorem Denotes.changes {inv' : Inventory} (h : Denotes inv c) (hw : inv.WellFormed)
    (hchanges : Changes policy (CreatesNothing policy) inv inv') : Denotes inv' c := by
  rcases hchanges with rfl | ⟨e, he, rfl⟩
  · exact h
  · exact Denotes.after h (he.sound hw)

theorem Denotes.interlude {d : Interlude} {w : World} (h : Denotes w.inventory c)
    (hready : Inventory.Ready policy w.inventory d.events) :
    Denotes (d.after policy w).inventory c :=
  hready.after_induction (P := fun inv => Denotes inv c) h fun _ hm hc => Denotes.after hc hm

theorem Denotes.applied {o : Outcome} (h : Denotes inv o.candidate) :
    Applied o inv (inv.noteProbe o.candidate.id o.success o.now).2 where
  gone := by
    intro hgone
    rw [Inventory.noteProbe_of_not_mem hgone]
  there := by
    intro hmem
    obtain ⟨s, i, hi, hid, hreplaced, hlast⟩ :=
      Inventory.noteProbe_replaced hmem o.success o.now
    obtain ⟨t, k, hbears, hk, hname, hendpoint, hprobeable⟩ := h
    -- What is stored under the number is what the candidate was read from.
    obtain ⟨rfl, hsame⟩ := hbears.unique s i hi (hid.trans hk.symm)
    refine ⟨s, i, hi, hid, hname, hsame.endpoint_eq.trans hendpoint, ?_, hreplaced, hlast⟩
    rw [hsame.isProbeable_eq, hprobeable]

/-! ## Whatever others do -/

/-- The candidates that a step has read. -/
def Mark.read : Mark → List Candidate
  | snapshot cs => cs
  | _ => []

/-- Outcomes are noted only of candidates that are given or were read before. -/
def Covered : List Candidate → List Mark → Prop
  | _, [] => True
  | cs, m :: ms => (∀ o, m = .noted o → o.candidate ∈ cs) ∧ Covered (m.read ++ cs) ms

theorem covered_probed {cs : List Candidate} {ms : List Mark} (h : Covered cs ms)
    (outcomes : List Outcome) :
    Covered cs (outcomes.map (fun o => .probed o.candidate o.reaction) ++ ms) := by
  induction outcomes with
  | nil => exact h
  | cons o outcomes ih => exact ⟨nofun, ih⟩

theorem covered_noted {cs : List Candidate} {ms : List Mark} (h : Covered cs ms)
    {outcomes : List Outcome} (hcs : ∀ o ∈ outcomes, o.candidate ∈ cs) :
    Covered cs (outcomes.map .noted ++ ms) := by
  induction outcomes with
  | nil => exact h
  | cons o outcomes ih =>
    obtain ⟨ho, houtcomes⟩ := List.forall_mem_cons.1 hcs
    refine ⟨?_, ih houtcomes⟩
    rintro o' ⟨⟩
    exact ho

/-- A step does what the mark says, and an outcome reaches the instance that was probed. -/
def Mark.Reaches (policy : Policy) (m : Mark) (w w' : World) : Prop :=
  m.Does policy w w' ∧ ∀ o, m = .noted o → Applied o w.inventory w'.inventory

section

variable {m : Mark} {w w' : World}

theorem Mark.Does.changes (h : m.Does policy w w') :
    Changes policy (CreatesNothing policy) w.inventory w'.inventory := by
  cases m with
  | snapshot cs => exact .inl h.2
  | probed c r => exact .inl h.2
  | noted o => exact .inr ⟨⟨o.now, .noteProbe o.candidate.id o.success⟩, fun _ => rfl, h⟩
  | swept now => exact .inr ⟨⟨now, .sweep⟩, fun _ => rfl, h⟩

theorem Mark.Does.denotes_read (h : m.Does policy w w') (hw : w.inventory.WellFormed) :
    ∀ c ∈ m.read, Denotes w.inventory c := by
  intro c hc
  cases m with
  | snapshot cs =>
    have hread : w.inventory.candidates = cs := h.1
    rw [Mark.read, ← hread] at hc
    exact denotes_of_mem_candidates hw hc
  | _ => cases hc

theorem Mark.Does.reaches (h : m.Does policy w w')
    (hdenotes : ∀ o, m = .noted o → Denotes w.inventory o.candidate) :
    m.Reaches policy w w' := by
  refine ⟨h, ?_⟩
  rintro o rfl
  have hnoted : w'.inventory = (w.inventory.noteProbe o.candidate.id o.success o.now).2 := h
  rw [hnoted]
  exact (hdenotes o rfl).applied

end

theorem reaches_of_enacts {α : Type} {x : Work α} {others : Nat → Interlude} {w : World}
    {ms : List Mark} (h : Enacts policy (Mark.Does policy) x others w ms)
    (hspace : Spacious policy x others w) {cs : List Candidate} (hcovered : Covered cs ms)
    (hcs : ∀ c ∈ cs, Denotes w.inventory c) :
    Enacts policy (Mark.Reaches policy) x others w ms := by
  -- Along the steps; `cs` are the candidates read so far, and their numbers keep their meaning
  -- through the interlude before each step and through the step itself.
  induction h generalizing cs with
  | done a others w => exact .done a others w
  | idle act next others w ms hsame _ ih =>
    refine .idle act next others w ms hsame (ih (hspace.rest (.inl hsame)) hcovered ?_)
    rw [hsame]
    exact fun c hc => (hcs c hc).interlude hspace.ready
  | mark act next others w m ms hdoes _ ih =>
    have hwell : ((others 0).after policy w).inventory.WellFormed :=
      hspace.ready.wellFormed_after
    have hmet : ∀ c ∈ cs, Denotes ((others 0).after policy w).inventory c :=
      fun c hc => (hcs c hc).interlude hspace.ready
    have hreaches := hdoes.reaches fun o ho => hmet o.candidate (hcovered.1 o ho)
    refine .mark act next others w m ms hreaches
      (ih (hspace.rest hdoes.changes) hcovered.2 fun c hc => ?_)
    refine Denotes.changes ?_ hwell hdoes.changes
    rcases List.mem_append.1 hc with hc | hc
    · exact hdoes.denotes_read hwell c hc
    · exact hmet c hc

end

/-- However others come between the steps of a pass, the outcome of each probe changes the
    count of failures and the time of the last success of at most the one instance whose
    number was read, and that instance has the name, the endpoint and the capability that
    were read with it. If the instance has gone the outcome changes nothing. -/
theorem pass_applies_outcomes (cfg : Settings) (before : List Event) (w : World)
    (others : Nat → Interlude)
    (hreached : w.inventory = Inventory.after cfg.policy .empty before)
    (hroom : Inventory.creations cfg.policy .empty before
      + creationsAmid cfg.policy (pass cfg) others w < UInt64.size) :
    ∃ (outcomes : List Outcome) (now : UInt64),
      Enacts cfg.policy (Mark.Reaches cfg.policy) (pass cfg) others w
        (.snapshot (outcomes.map (·.candidate))
          :: outcomes.map (fun o => .probed o.candidate o.reaction)
          ++ outcomes.map .noted ++ [.swept now]) := by
  have hready : Inventory.Ready cfg.policy .empty before := Inventory.ready_empty (by omega)
  have hlast : w.inventory.lastId.toNat = Inventory.creations cfg.policy .empty before := by
    rw [hreached, hready.toNat_lastId_after]
    exact Nat.zero_add _
  have hspace : Spacious cfg.policy (pass cfg) others w := by
    refine ⟨?_, by rwa [hlast]⟩
    rw [hreached]
    exact hready.wellFormed_after
  obtain ⟨-, ms, ⟨outcomes, now, rfl⟩, henacts⟩ := (collects_pass cfg).enacts others w
  refine ⟨outcomes, now, reaches_of_enacts henacts hspace ?_ (List.forall_mem_nil _)⟩
  -- Every outcome is that of a probe of a candidate in the snapshot.
  have hcovered : Covered (outcomes.map (·.candidate) ++ [])
      (outcomes.map .noted ++ [.swept now]) := by
    apply covered_noted
    · exact ⟨nofun, trivial⟩
    · intro o ho
      exact List.mem_append_left _ (List.mem_map_of_mem ho)
  have hprobed := covered_probed hcovered outcomes
  rw [← List.append_assoc] at hprobed
  exact ⟨nofun, hprobed⟩

/-- While an instance is probed it is withdrawn and registered again at its endpoint. -/
theorem pass_applies_outcomes_replaced :
    let kv : Inventory.Action := .enrol ⟨"kv", none⟩ ⟨"10.0.0.5", 9000⟩ [.status]
    let before : List Event := [⟨1000, kv⟩]
    let between : List Event := [⟨2000, .withdraw 1⟩, ⟨3000, kv⟩]
    let w : World :=
      { clock := 4000, unixTime := 0, inventory := Inventory.after {} .empty before }
    let others : Nat → Interlude := fun n => if n = 2 then { events := between } else {}
    Inventory.creations {} .empty before + creationsAmid {} (pass {}) others w < UInt64.size ∧
      (Inventory.after {} .empty (before ++ between)).stored
        = [(⟨"kv", none⟩, .enrolled 2 ⟨"10.0.0.5", 9000⟩ [.status] 3000)] ∧
      ∃ (outcomes : List Outcome) (now : UInt64),
        Enacts {} (Mark.Reaches {}) (pass {}) others w
          (.snapshot (outcomes.map (·.candidate))
            :: outcomes.map (fun o => .probed o.candidate o.reaction)
            ++ outcomes.map .noted ++ [.swept now]) := by
  intro kv before between w others
  have hroom : Inventory.creations {} .empty before + creationsAmid {} (pass {}) others w
      < UInt64.size := by decide +kernel
  have hreplaced : (Inventory.after {} .empty (before ++ between)).stored
      = [(⟨"kv", none⟩, .enrolled 2 ⟨"10.0.0.5", 9000⟩ [.status] 3000)] := by decide +kernel
  exact ⟨hroom, hreplaced, pass_applies_outcomes {} before w others rfl hroom⟩

end ServiceRegistry.Supervision
