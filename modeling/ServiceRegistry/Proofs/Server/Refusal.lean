/-
  ServiceRegistry.Proofs.Server.Refusal

  A request that is refused has done nothing. Every handler decides whether to refuse before it
  changes anything: a registration looks at all of its addresses before it files the first, and
  once it has begun none is refused, since the only refusal left is of a missing name. So a
  response other than 200 tells that no step of the request changed the inventory, published
  groups, called an instance or counted anything.
-/
import ServiceRegistry.Client.Registry
import ServiceRegistry.Proofs.World.Restraint
import ServiceRegistry.Server.Respond

namespace ServiceRegistry.Server

open Message World

section

variable {α β : Type} {cfg : Settings}

/-! ## Handlers -/

/-- Where the activity refuses, it has changed nothing. -/
def Restrained (x : Work (Except RegistryError α)) : Prop :=
  Follows Touches (fun result touched => (∃ e, result = .error e) → touched = false) false x

theorem restrained_error (e : RegistryError) :
    Restrained (pure (.error e) : Work (Except RegistryError α)) :=
  follows_pure fun _ => rfl

/-- Nothing is refused any more. -/
theorem follows_ok {touched : Bool} (a : α) :
    Follows Touches (fun result touched' => (∃ e, result = .error e) → touched' = false) touched
      (pure (.ok a) : Work (Except RegistryError α)) := by
  refine follows_pure ?_
  rintro ⟨e, he⟩
  cases he

theorem touches_enrolAll {service : Service} (hname : service.name ≠ "") {touched : Bool}
    (addresses : List (Endpoint × List Capability)) :
    Follows Touches (fun result _ => ∃ rs, result = .ok rs) touched
      (enrolAll service addresses) := by
  induction addresses generalizing touched with
  | nil => exact follows_pure ⟨[], rfl⟩
  | cons a rest ih =>
    refine follows_bind (touches_enrol hname a.1 a.2) fun result touched₁ h => ?_
    obtain ⟨r, rfl⟩ := h
    refine follows_bind ih fun results touched₂ h => ?_
    obtain ⟨rs, rfl⟩ := h
    exact follows_pure ⟨r :: rs, rfl⟩

theorem restrained_register (peer : Option Net.Ip) (r : RegisterRequest) :
    Restrained (register cfg peer r) := by
  unfold register
  split
  · exact restrained_error _
  · split
    · exact restrained_error _
    case isFalse hname =>
      -- All hosts are determined before the first address is filed.
      split
      · exact restrained_error _
      · refine follows_bind (touches_enrolAll hname _) fun results touched h => ?_
        obtain ⟨rs, rfl⟩ := h
        dsimp only
        split
        · refine follows_bind (touches_any _) fun _ touched₁ _ => ?_
          exact follows_bind (touches_any _) fun _ touched₂ _ => follows_ok _
        · exact follows_ok _

theorem restrained_deregister (r : DeregisterRequest) : Restrained (deregister cfg r) := by
  refine follows_bind (touches_withdraw cfg r.instanceId) fun result touched h => ?_
  cases result with
  | error e => exact follows_pure fun _ => h ⟨e, rfl⟩
  | ok evicted =>
    refine follows_bind (touches_any _) fun _ touched₁ _ => ?_
    exact follows_bind (touches_any _) fun _ touched₂ _ => follows_ok _

theorem restrained_processShutdown (peer : Option Net.Ip) (r : ProcessShutdownRequest) :
    Restrained (processShutdown cfg peer r) := by
  unfold processShutdown
  split
  · exact restrained_error _
  · refine follows_bind (touches_any _) fun evicted touched _ => ?_
    dsimp only
    split
    · refine follows_bind (touches_any _) fun _ touched₁ _ => ?_
      exact follows_bind (touches_any _) fun _ touched₂ _ => follows_ok _
    · exact follows_ok _

theorem restrained_list (r : ListRequest) : Restrained (list r) :=
  follows_bind (touches_any _) fun _ _ _ => follows_ok _

theorem restrained_target (r : TargetRequest) : Restrained (target r) :=
  follows_bind (touches_any _) fun _ _ _ => follows_ok _

theorem restrained_lookup (r : LookupRequest) : Restrained (lookup r) :=
  follows_bind (touches_observe _) fun _ _ h => follows_pure fun _ => h

/-- A service that is not there is found missing before any instance is called. -/
theorem restrained_shutdown (r : ShutdownRequest) : Restrained (shutdown r) := by
  refine follows_bind (touches_observe _) fun entries touched h => ?_
  cases entries with
  | nil => exact follows_pure fun _ => h
  | cons e es => exact follows_bind (touches_any _) fun _ _ _ => follows_ok _

/-! ## Requests -/

/-- Where the activity answers with another status than 200, it has changed nothing. -/
def RestrainedResponse (x : Work Net.Response) : Prop :=
  Follows Touches (fun response touched => response.status ≠ 200 → touched = false) false x

theorem restrainedResponse_serve {decode : Json.Decoder α} {encode : β → Json}
    {handler : α → Work (Except RegistryError β)} (h : ∀ a, Restrained (handler a))
    (r : Net.Request) : RestrainedResponse (serve decode encode handler r) := by
  unfold serve
  split
  · exact follows_pure fun _ => rfl
  · refine follows_bind (h _) fun result touched hresult => ?_
    cases result with
    | error e => exact follows_pure fun _ => hresult ⟨e, rfl⟩
    | ok b => exact follows_pure fun hstatus => absurd rfl hstatus

theorem restrainedResponse_operate (peer : Option Net.Ip) (r : Net.Request) (op : Operation) :
    RestrainedResponse (operate cfg peer r op) := by
  cases op with
  | register => exact restrainedResponse_serve (restrained_register peer) r
  | deregister => exact restrainedResponse_serve restrained_deregister r
  | list => exact restrainedResponse_serve restrained_list r
  | target => exact restrainedResponse_serve restrained_target r
  | lookup => exact restrainedResponse_serve restrained_lookup r
  | shutdown => exact restrainedResponse_serve restrained_shutdown r
  | processShutdown => exact restrainedResponse_serve (restrained_processShutdown peer) r

theorem restrainedResponse_dispatch (peer : Option Net.Ip) (r : Net.Request) :
    RestrainedResponse (dispatch cfg peer r) := by
  unfold dispatch
  split
  · exact follows_pure fun _ => rfl
  · split
    · split
      · exact follows_pure fun _ => rfl
      · exact restrainedResponse_operate peer r _
    · exact follows_pure fun _ => rfl

theorem restrainedResponse_guarded (peer : Option Net.Ip) (r : Net.Request) :
    RestrainedResponse (guarded cfg peer r) := by
  unfold guarded
  split
  · refine follows_bind (touches_observe _) fun now touched h => ?_
    subst h
    split
    · exact follows_pure fun _ => rfl
    · exact restrainedResponse_dispatch peer r
  · exact restrainedResponse_dispatch peer r

theorem restrainedResponse_respond (peer : Option Net.Ip) (r : Net.Request) :
    RestrainedResponse (respond cfg peer r) :=
  follows_bind (restrainedResponse_guarded _ r) fun _ _ h => follows_pure h

end

/-! ## Refused requests -/

/-- A request that is answered with another status than 200 leaves everything as it was: the
    inventory with the last number given, what has been published, the calls made to instances,
    and all the rest. If others are at work meanwhile, none of its own steps changes
    anything. -/
theorem respond_refused (cfg : Settings) (peer : Option Net.Ip) (r : Net.Request) (w : World) :
    (((respond cfg peer r).run w).1.status ≠ 200 → ((respond cfg peer r).run w).2 = w) ∧
    ∀ others : Nat → World → World, (ownSteps (respond cfg peer r) others w).1.status ≠ 200 →
      ∀ s ∈ (ownSteps (respond cfg peer r) others w).2, s.2 = s.1 := by
  have hrespond : RestrainedResponse (respond cfg peer r) := restrainedResponse_respond peer r
  constructor
  · intro hstatus
    obtain ⟨touched, hpost, hsame⟩ := Follows.run_touches hrespond w
    exact hsame (hpost hstatus)
  · intro others hstatus
    obtain ⟨touched, hpost, hsame⟩ := Follows.ownSteps hrespond others w
    exact (hsame (hpost hstatus)).2

/-- A registration whose second host cannot be determined, and the removal of an instance that
    is not there while another is due to be swept away. -/
theorem respond_refused_later_address :
    let registry : Client.Handle := { origin := "http://registry" }
    let r := (registry.call .register (RegisterRequest.toJson
      ⟨⟨"kv", none⟩, [⟨"10.0.0.5", 9000, [.tcp]⟩, ⟨"", 9001, [.tcp]⟩]⟩)).request
    let gone := (registry.call .deregister (DeregisterRequest.toJson ⟨7⟩)).request
    let stale : Instance := .enrolled 1 ⟨"10.0.0.6", 9000⟩ [.tcp] 0
    let w : World :=
      { clock := 1000000, unixTime := 0, inventory := ⟨[⟨⟨"kv", none⟩, [stale]⟩], 1⟩ }
    let others (_ : Nat) (w : World) : World := { w with clock := w.clock + 1 }
    (((respond {} none r).run w).1.status = 422 ∧ ((respond {} none r).run w).2 = w) ∧
    (((respond {} none gone).run w).1.status = 404 ∧ ((respond {} none gone).run w).2 = w) ∧
    ∀ s ∈ (ownSteps (respond {} none gone) others w).2, s.2 = s.1 := by
  intro registry r gone stale w others
  have hlater : ((respond {} none r).run w).1.status = 422 := by decide +kernel
  have hgone : ((respond {} none gone).run w).1.status = 404 := by decide +kernel
  have hmeanwhile : (ownSteps (respond {} none gone) others w).1.status = 404 := by
    decide +kernel
  have hsame := (respond_refused {} none r w).1 (by rw [hlater]; decide)
  obtain ⟨hkept, hsteps⟩ := respond_refused {} none gone w
  refine ⟨⟨hlater, hsame⟩, ⟨hgone, hkept (by rw [hgone]; decide)⟩, ?_⟩
  exact hsteps others (by rw [hmeanwhile]; decide)

end ServiceRegistry.Server
