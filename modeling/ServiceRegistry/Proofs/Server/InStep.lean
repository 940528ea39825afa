/-
  ServiceRegistry.Proofs.Server.InStep

  The scraper knows what the inventory shows. Each handler, each request as a whole and each
  pass comes to its end owing nothing (`Settles`): whatever branch it takes, either it has
  published the groups after its last change, or it has not changed them. In a registry that
  does one thing after the other the groups published last are therefore those of the
  inventory, between any two of them.
-/
import ServiceRegistry.Proofs.World.Alone
import ServiceRegistry.Proofs.World.Publishing
import ServiceRegistry.Server.Respond
import ServiceRegistry.Supervision.Pass

namespace ServiceRegistry.Server

open Message World

section

variable {α β : Type} {cfg : Settings}

/-! ## Registration -/

theorem publishes_enrolAll {service : Service} (hname : service.name ≠ "") {owes : Bool}
    (addresses : List (Endpoint × List Capability)) :
    PublishesTo owes (enrolAll service addresses) fun result owes' =>
      ∃ rs, result = .ok rs ∧ (rs.any (·.created) = false → owes' = owes) := by
  -- Along the addresses; `owes` is what the ones before have left.
  induction addresses generalizing owes with
  | nil => exact publishes_pure ⟨[], rfl, fun _ => rfl⟩
  | cons a rest ih =>
    refine publishes_bind (publishes_enrol hname a.1 a.2) fun result owes₁ h₁ => ?_
    obtain ⟨r, rfl, hr⟩ := h₁
    refine publishes_bind ih fun results owes₂ h₂ => ?_
    obtain ⟨rs, rfl, hrs⟩ := h₂
    refine publishes_pure ⟨r :: rs, rfl, fun hnone => ?_⟩
    rw [List.any_cons, Bool.or_eq_false_iff] at hnone
    exact (hrs hnone.2).trans (hr hnone.1)

theorem settles_register (peer : Option Net.Ip) (r : RegisterRequest) :
    Settles (register cfg peer r) := by
  unfold register
  split
  · exact settles_pure _
  · split
    · exact settles_pure _
    case isFalse hname =>
      split
      · exact settles_pure _
      · refine publishes_bind (publishes_enrolAll hname _) fun results owes h => ?_
        obtain ⟨rs, rfl, hrs⟩ := h
        dsimp only
        split
        case isTrue => exact settles_of_refresh _
        case isFalse hnone =>
          -- Only instances that were there: nothing is published, and nothing is owed.
          exact publishes_pure (hrs (eq_false_of_ne_true hnone))

/-! ## Removal -/

theorem settles_deregister (r : DeregisterRequest) : Settles (deregister cfg r) := by
  refine publishes_bind (publishes_withdraw r.instanceId) fun result owes h => ?_
  cases result with
  | error e => exact publishes_pure (h ⟨e, rfl⟩)
  | ok evicted => exact settles_of_refresh _

theorem settles_processShutdown (peer : Option Net.Ip) (r : ProcessShutdownRequest) :
    Settles (processShutdown cfg peer r) := by
  unfold processShutdown
  split
  · exact settles_pure _
  · refine publishes_bind (publishes_withdrawPorts _ _) fun evicted owes h => ?_
    cases evicted with
    | nil => exact publishes_pure (h rfl)
    | cons ev evs => exact settles_of_refresh _

/-! ## Queries -/

theorem settles_list (r : ListRequest) : Settles (list r) :=
  settles_bind (publishes_look _) fun _ => settles_pure _

theorem settles_target (r : TargetRequest) : Settles (target r) :=
  settles_bind (publishes_look _) fun _ => settles_pure _

theorem settles_lookup (r : LookupRequest) : Settles (lookup r) :=
  settles_bind (publishes_look _) fun _ => settles_pure _

theorem settles_requestShutdowns (is : List Instance) : Settles (requestShutdowns is) := by
  induction is with
  | nil => exact settles_pure ()
  | cons i is ih => exact settles_bind (publishes_requestShutdown i.endpoint) fun _ => ih

theorem settles_shutdown (r : ShutdownRequest) : Settles (shutdown r) := by
  refine settles_bind (publishes_look _) fun entries => ?_
  cases entries with
  | nil => exact settles_pure _
  | cons e es => exact settles_bind (settles_requestShutdowns _) fun _ => settles_pure _

/-! ## Passes -/

theorem settles_probeAll (cs : List Candidate) : Settles (Supervision.probeAll cs) := by
  induction cs with
  | nil => exact settles_pure _
  | cons c cs ih =>
    refine settles_bind (publishes_probe c) fun r => ?_
    exact settles_bind ih fun rs => settles_pure _

theorem settles_noteOutcome (c : Candidate) (r : Reaction) :
    Settles (Supervision.noteOutcome c r) := by
  unfold Supervision.noteOutcome
  split
  · exact settles_bind (publishes_noteProbe c.id true) fun _ => settles_pure _
  · refine settles_bind (publishes_count _) fun _ => ?_
    exact settles_bind (publishes_noteProbe c.id false) fun _ => settles_pure _

theorem settles_noteOutcomes (outcomes : List (Candidate × Reaction)) :
    Settles (Supervision.noteOutcomes outcomes) := by
  induction outcomes with
  | nil => exact settles_pure _
  | cons o rest ih => exact settles_bind (settles_noteOutcome o.1 o.2) fun _ => ih

theorem settles_pass : Settles (Supervision.pass cfg) := by
  refine settles_bind (publishes_look _) fun candidates => ?_
  refine settles_bind (settles_probeAll candidates) fun outcomes => ?_
  refine settles_bind (settles_noteOutcomes outcomes) fun _ => ?_
  refine publishes_bind publishes_sweep fun evicted owes h => ?_
  refine publishes_bind (publishes_count _) fun _ owes₁ h₁ => ?_
  subst h₁
  cases evicted with
  | nil =>
    -- A sweep that evicts nothing leaves the inventory as it is.
    rw [h rfl]
    exact settles_bind publishes_gauge fun _ => settles_pure _
  | cons ev evs =>
    refine publishes_bind publishes_refreshScrapes fun _ owes₂ h₂ => ?_
    subst h₂
    exact settles_bind publishes_gauge fun _ => settles_pure _

/-! ## Requests -/

theorem settles_serve {decode : Json.Decoder α} {encode : β → Json}
    {handler : α → Work (Except RegistryError β)} (h : ∀ a, Settles (handler a))
    (r : Net.Request) : Settles (serve decode encode handler r) := by
  unfold serve
  split
  · exact settles_pure _
  · exact settles_bind (h _) fun _ => settles_pure _

theorem settles_operate (peer : Option Net.Ip) (r : Net.Request) (op : Operation) :
    Settles (operate cfg peer r op) := by
  cases op with
  | register => exact settles_serve (settles_register peer) r
  | deregister => exact settles_serve settles_deregister r
  | list => exact settles_serve settles_list r
  | target => exact settles_serve settles_target r
  | lookup => exact settles_serve settles_lookup r
  | shutdown => exact settles_serve settles_shutdown r
  | processShutdown => exact settles_serve (settles_processShutdown peer) r

theorem settles_dispatch (peer : Option Net.Ip) (r : Net.Request) :
    Settles (dispatch cfg peer r) := by
  unfold dispatch
  split
  · exact settles_pure _
  · split
    · split
      · exact settles_pure _
      · exact settles_operate peer r _
    · exact settles_pure _

theorem settles_respond (peer : Option Net.Ip) (r : Net.Request) :
    Settles (respond cfg peer r) := by
  have hguarded : Settles (guarded cfg (peer.map Net.Ip.canonical) r) := by
    unfold guarded
    split
    · -- A token is judged by the clock; whom it does not admit changes nothing.
      refine settles_bind (publishes_quietly (fun _ => rfl) fun _ => rfl) fun now => ?_
      split
      · exact settles_pure _
      · exact settles_dispatch _ r
    · exact settles_dispatch _ r
  exact settles_bind hguarded fun _ => settles_pure _

end

/-! ## One thing after the other -/

/-- Something that a registry does from beginning to end. -/
inductive Episode
  | request (peer : Option Net.Ip) (r : Net.Request)
  | pass

/-- The world after an episode. Clocks and fleet may drift before each of its steps. -/
def Episode.after (cfg : Settings) (w : World) : Episode × (Nat → Drift) → World
  | (request peer r, drifts) => (runAlone (respond cfg peer r) drifts w).2
  | (pass, drifts) => (runAlone (Supervision.pass cfg) drifts w).2

/-- The groups published last are those of the inventory, or a publication is owed, or the
    groups of the inventory are about to be published. -/
def InStep (p : Phase) (w : World) : Prop :=
  match p with
  | .free false => w.published.headD [] = w.inventory.scrapeGroups
  | .free true => True
  | .holding groups => groups = w.inventory.scrapeGroups

theorem InStep.publishes {p p' : Phase} {w w' : World} (hstep : Publishes p w w' p')
    (h : InStep p w) : InStep p' w' := by
  cases hstep with
  | @keep owes _ _ hgroups hpublished =>
    cases owes with
    | false =>
      show w'.published.headD [] = w'.inventory.scrapeGroups
      rw [hpublished, hgroups]
      exact h
    | true => trivial
  | change => trivial
  | read hinventory => exact (congrArg Inventory.scrapeGroups hinventory).symm
  | write hinventory hpublished =>
    show w'.published.headD [] = w'.inventory.scrapeGroups
    rw [hpublished, hinventory]
    exact h

theorem InStep.runAlone {α : Type} {x : Work α} (hx : Settles x) (drifts : Nat → Drift)
    {w : World} (h : InStep (.free false) w) :
    InStep (.free false) (World.runAlone x drifts w).2 := by
  obtain ⟨p, ⟨_, rfl, rfl⟩, hafter⟩ := Follows.runAlone hx (P := InStep)
    (fun _ _ _ _ hstep hw => hw.publishes hstep) (fun _ _ _ hw => hw) drifts h
  exact hafter

/-- In a registry that does one thing after the other, each a request of any kind and with
    any body, or a pass, the groups published last are those that the inventory shows; none
    before the first publication. -/
theorem published_eq_scrapeGroups (cfg : Settings) (clock unixTime : UInt64) (fleet : Fleet)
    (files : Scrape.FileSystem) (episodes : List (Episode × (Nat → Drift))) :
    let w := episodes.foldl (Episode.after cfg) { clock, unixTime, fleet, files }
    w.published.headD [] = w.inventory.scrapeGroups := by
  intro w
  have hall : ∀ w₀ : World, InStep (.free false) w₀ →
      InStep (.free false) (episodes.foldl (Episode.after cfg) w₀) := by
    -- Along the episodes; nothing is owed between two of them.
    induction episodes with
    | nil => exact fun w₀ h => h
    | cons e episodes ih =>
      intro w₀ h
      obtain ⟨episode, drifts⟩ := e
      refine ih _ ?_
      cases episode with
      | request peer r => exact h.runAlone (settles_respond peer r) drifts
      | pass => exact h.runAlone settles_pass drifts
  exact hall _ rfl

end ServiceRegistry.Server
