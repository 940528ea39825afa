/-
  ServiceRegistry.Proofs.World.Publishing

  How an activity stands with the scraper. The ghost of the rule `Publishes` is a phase: the
  activity has changed the groups and owes their publication, or it has not; or it has read
  the groups and holds them, and then its next step publishes them.

  Each operation of a registry comes with what it leaves owing. The ones that matter are
  those after which nothing is published: a registration that finds its instance, a removal
  that removes nothing, the outcome of a probe.
-/
import ServiceRegistry.Proofs.Inventory.Candidates
import ServiceRegistry.Proofs.World.Ghost

namespace ServiceRegistry.World

/-! ## Phases -/

/-- Where an activity stands with the scraper. -/
inductive Phase
  /-- It holds nothing. It may have changed the groups and not read them since. -/
  | free (owes : Bool)
  /-- It has read the groups and is about to publish them. -/
  | holding (groups : List ScrapeGroup)

/-- How a step may treat the groups and the publications, and the phase after it. -/
inductive Publishes : Phase → World → World → Phase → Prop
  | keep {owes : Bool} {w w' : World}
    (hgroups : w'.inventory.scrapeGroups = w.inventory.scrapeGroups)
    (hpublished : w'.published = w.published) : Publishes (.free owes) w w' (.free owes)
  | change {owes : Bool} {w w' : World}
    (hgroups : w'.inventory.scrapeGroups ≠ w.inventory.scrapeGroups)
    (hpublished : w'.published = w.published) : Publishes (.free owes) w w' (.free true)
  | read {owes : Bool} {w w' : World} (hinventory : w'.inventory = w.inventory)
    (hpublished : w'.published = w.published) :
    Publishes (.free owes) w w' (.holding w.inventory.scrapeGroups)
  | write {groups : List ScrapeGroup} {w w' : World} (hinventory : w'.inventory = w.inventory)
    (hpublished : w'.published = groups :: w.published) :
    Publishes (.holding groups) w w' (.free false)

/-- The steps of an activity obey the rule, it holds nothing at its beginning and its end, and
    its value fits what it owes then. -/
def PublishesTo {α : Type} (owes : Bool) (x : Work α) (post : α → Bool → Prop) : Prop :=
  Follows Publishes (fun a p => ∃ owes', p = .free owes' ∧ post a owes') (.free owes) x

section

variable {α β : Type} {owes : Bool} {post : α → Bool → Prop}

theorem publishes_pure {a : α} (h : post a owes) : PublishesTo owes (pure a) post :=
  ⟨owes, rfl, h⟩

theorem publishes_bind {mid : β → Bool → Prop} {x : Work β} {f : β → Work α}
    (hx : PublishesTo owes x mid)
    (hf : ∀ b owes', mid b owes' → PublishesTo owes' (f b) post) :
    PublishesTo owes (x >>= f) post := by
  refine follows_bind hx fun b p h => ?_
  obtain ⟨owes', rfl, hmid⟩ := h
  exact hf b owes' hmid

/-- A step that touches neither the inventory nor the publications. -/
theorem publishes_quietly {act : World → World} {value : World → α}
    (hinventory : ∀ w, (act w).inventory = w.inventory)
    (hpublished : ∀ w, (act w).published = w.published) :
    PublishesTo owes (.step act fun w => .done (value w)) fun _ owes' => owes' = owes :=
  fun w => ⟨.free owes, .keep (by rw [hinventory w]) (hpublished w), owes, rfl, rfl⟩

theorem publishes_readClock : PublishesTo owes readClock fun _ owes' => owes' = owes :=
  publishes_quietly (fun _ => rfl) fun _ => rfl

theorem publishes_look (f : Inventory → α) :
    PublishesTo owes (look f) fun _ owes' => owes' = owes :=
  publishes_quietly (fun _ => rfl) fun _ => rfl

theorem publishes_count (f : Metrics → Metrics) :
    PublishesTo owes (count f) fun _ owes' => owes' = owes :=
  publishes_quietly (fun _ => rfl) fun _ => rfl

theorem publishes_gauge : PublishesTo owes gauge fun _ owes' => owes' = owes :=
  publishes_quietly (fun _ => rfl) fun _ => rfl

theorem publishes_probe (c : Candidate) :
    PublishesTo owes (probe c) fun _ owes' => owes' = owes :=
  publishes_quietly (fun _ => rfl) fun _ => rfl

theorem publishes_requestShutdown (e : Endpoint) :
    PublishesTo owes (requestShutdown e) fun _ owes' => owes' = owes :=
  publishes_quietly (fun _ => rfl) fun _ => rfl

/-! ## Operations on the inventory -/

/-- A step on the inventory that keeps the groups where its answer says so. -/
theorem publishes_onInventory {f : Inventory → α × Inventory} {keeps : α → Prop}
    (h : ∀ inv, keeps (f inv).1 → (f inv).2.scrapeGroups = inv.scrapeGroups) :
    PublishesTo owes (onInventory f) fun a owes' => keeps a → owes' = owes := by
  refine follows_atomically fun w => ?_
  -- Which rule the step obeys depends on the inventory that it meets.
  by_cases hgroups : (f w.inventory).2.scrapeGroups = w.inventory.scrapeGroups
  · exact ⟨.free owes, .keep hgroups rfl, owes, rfl, fun _ => rfl⟩
  · exact ⟨.free true, .change hgroups rfl, true, rfl, fun hkeeps => absurd (h _ hkeeps) hgroups⟩

/-- A service with a name is never refused. -/
theorem publishes_enrol {service : Service} (hname : service.name ≠ "") (endpoint : Endpoint)
    (capabilities : List Capability) :
    PublishesTo owes (enrol service endpoint capabilities) fun result owes' =>
      ∃ r, result = .ok r ∧ (r.created = false → owes' = owes) := by
  refine publishes_bind publishes_readClock fun now owes₁ h₁ => ?_
  subst h₁
  refine follows_atomically fun w => ?_
  obtain ⟨r, inv, henrol⟩ :
      ∃ r inv, w.inventory.enrol service endpoint capabilities now = .ok (r, inv) := by
    unfold Inventory.enrol
    rw [if_neg hname]
    exact ⟨_, _, rfl⟩
  dsimp only
  rw [henrol]
  by_cases hgroups : inv.scrapeGroups = w.inventory.scrapeGroups
  · exact ⟨.free owes₁, .keep hgroups rfl, owes₁, rfl, r, rfl, fun _ => rfl⟩
  · -- The groups are others, so the instance is new.
    refine ⟨.free true, .change hgroups rfl, true, rfl, r, rfl, fun hr => ?_⟩
    exact absurd (Inventory.scrapeGroups_congr (Inventory.enrol_candidates henrol hr)) hgroups

theorem publishes_noteProbe (id : InstanceId) (success : Bool) :
    PublishesTo owes (noteProbe id success) fun _ owes' => owes' = owes := by
  refine publishes_bind publishes_readClock fun now owes₁ h₁ => ?_
  subst h₁
  refine follows_atomically fun w => ?_
  have hsame := Inventory.scrapeGroups_congr
    (Inventory.noteProbe_candidates w.inventory id success now)
  exact ⟨.free owes₁, .keep hsame rfl, owes₁, rfl, rfl⟩

variable {cfg : Settings}

theorem publishes_withdraw (id : InstanceId) :
    PublishesTo owes (withdraw cfg id) fun result owes' =>
      (∃ e, result = .error e) → owes' = owes := by
  refine publishes_bind publishes_readClock fun now owes₁ h₁ => ?_
  subst h₁
  refine publishes_onInventory fun inv hrefused => ?_
  -- A removal that is refused leaves the inventory as it was.
  obtain ⟨e, he⟩ := hrefused
  dsimp only at he ⊢
  cases hwithdraw : inv.withdraw cfg.policy id now with
  | ok r =>
    rw [hwithdraw] at he
    cases he
  | error e => rfl

theorem publishes_sweep :
    PublishesTo owes (sweep cfg) fun evicted owes' => evicted = [] → owes' = owes := by
  refine publishes_bind publishes_readClock fun now owes₁ h₁ => ?_
  subst h₁
  refine publishes_onInventory fun inv hnone => ?_
  rw [Inventory.sweep_eq_self hnone]

theorem publishes_withdrawPorts (host : String) (ports : List UInt16) :
    PublishesTo owes (withdrawPorts cfg host ports) fun evicted owes' =>
      evicted = [] → owes' = owes := by
  refine publishes_bind publishes_readClock fun now owes₁ h₁ => ?_
  subst h₁
  refine publishes_onInventory fun inv hnone => ?_
  rw [Inventory.withdrawPorts_eq_self hnone]

/-! ## Publishing -/

/-- Whatever was owed, nothing is owed after the groups have been published. -/
theorem publishes_refreshScrapes :
    PublishesTo owes (refreshScrapes cfg) fun _ owes' => owes' = false :=
  fun w => ⟨.holding w.inventory.scrapeGroups, .read rfl rfl,
    fun _ => ⟨.free false, .write rfl rfl, false, rfl, rfl⟩⟩

theorem publishes_refresh : PublishesTo owes (refresh cfg) fun _ owes' => owes' = false := by
  refine publishes_bind publishes_refreshScrapes fun _ owes₁ h₁ => ?_
  subst h₁
  exact publishes_gauge

/-! ## Activities that settle what they owe -/

/-- An activity that owes nothing at its beginning owes nothing at its end. -/
def Settles (x : Work α) : Prop := PublishesTo false x fun _ owes => owes = false

theorem settles_pure (a : α) : Settles (pure a) := publishes_pure rfl

theorem settles_bind {x : Work β} {f : β → Work α} (hx : Settles x) (hf : ∀ b, Settles (f b)) :
    Settles (x >>= f) := by
  refine publishes_bind hx fun b owes h => ?_
  subst h
  exact hf b

/-- Whatever an activity owes, it owes nothing after it has counted and published. -/
theorem settles_of_refresh {f : Metrics → Metrics} (a : α) :
    PublishesTo owes (do count f; refresh cfg; pure a) fun _ owes' => owes' = false := by
  refine publishes_bind (publishes_count f) fun _ owes₁ _ => ?_
  exact publishes_bind publishes_refresh fun _ owes₂ h₂ => publishes_pure h₂

end

end ServiceRegistry.World
