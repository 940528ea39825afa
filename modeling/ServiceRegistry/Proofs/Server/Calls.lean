/-
  ServiceRegistry.Proofs.Server.Calls

  Calls of a registry that are carried out at the same time, with their answers. Every call
  does what it does to the inventory in a single step, except that a request to register has
  a step for each of its addresses. So the answers are those of a serial order as long as no
  request announces more than one address; with two, a list can show the first without the
  second, which no serial order does.
-/
import ServiceRegistry.Proofs.Server.Jobs
import ServiceRegistry.Proofs.World.Serial

namespace ServiceRegistry.Server

open Message World

/-! ## Calls and replies -/

/-- A request that asks or changes the inventory, or the sweep of a pass. -/
inductive Call
  | register (peer : Option Net.Ip) (r : RegisterRequest)
  | deregister (r : DeregisterRequest)
  | list (r : ListRequest)
  | target (r : TargetRequest)
  | lookup (r : LookupRequest)
  | processShutdown (peer : Option Net.Ip) (r : ProcessShutdownRequest)
  | sweep

/-- The answer to a call. -/
inductive Reply
  | registered (result : Except RegistryError RegisterResponse)
  | acknowledged (result : Except RegistryError Ack)
  | listed (result : Except RegistryError ListResponse)
  | found (result : Except RegistryError Listing)
  | swept (evictions : List Eviction)
  deriving DecidableEq

/-- Carries out a call. -/
def Call.work (cfg : Settings) : Call → Work Reply
  | register peer r => do pure (.registered (← Server.register cfg peer r))
  | deregister r => do pure (.acknowledged (← Server.deregister cfg r))
  | list r => do pure (.listed (← Server.list r))
  | target r => do pure (.listed (← Server.target r))
  | lookup r => do pure (.found (← Server.lookup r))
  | processShutdown peer r => do pure (.acknowledged (← Server.processShutdown cfg peer r))
  | sweep => do pure (.swept (← World.sweep cfg))

/-- The call announces at most one address. -/
def Call.isSingle : Call → Bool
  | register _ r => r.addresses.length ≤ 1
  | _ => true

/-! ## Single steps -/

section

variable {cfg : Settings}

/-- Counting and publishing are done outside of the inventory. -/
theorem decides_refresh {α β : Type} {f : UInt64 → Inventory → α × Inventory} {reply : β → α}
    (count : Metrics → Metrics) (b : β) :
    Decides f reply (.decided (reply b)) (do World.count count; refresh cfg; pure b) :=
  decides_after cfg.policy (steps_count count) fun _ =>
    decides_after cfg.policy (steps_refresh cfg) fun _ => decides_pure b

theorem atomic_deregister (r : DeregisterRequest) :
    ∃ f, Atomic f ((Call.deregister r).work cfg) := by
  obtain ⟨f, hwithdraw⟩ := decides_tryInventory
    (fun result => Reply.acknowledged (result.map fun _ => ⟨⟩))
    fun now inv => inv.withdraw cfg.policy r.instanceId now
  -- The withdrawal decides; counting and publishing come after it.
  refine ⟨f, atomic_of_decides (decides_bind hwithdraw fun result => ?_)⟩
  cases result with
  | error e => exact decides_pure _
  | ok evicted => exact decides_refresh _ _

theorem atomic_processShutdown (peer : Option Net.Ip) (r : ProcessShutdownRequest) :
    ∃ f, Atomic f ((Call.processShutdown peer r).work cfg) := by
  unfold Call.work processShutdown
  dsimp only
  split
  · exact ⟨_, atomic_pure _⟩
  case _ host _ =>
    have hwithdraw := decides_onInventory
      (fun _ : List Eviction => Reply.acknowledged (.ok ⟨⟩))
      fun now inv => inv.withdrawPorts cfg.policy host r.ports now
    refine ⟨_, atomic_of_decides (decides_bind hwithdraw fun evicted => ?_)⟩
    split
    · exact decides_refresh _ _
    · exact decides_pure _

theorem decides_enrolAll {α : Type} (service : Service) (a : Endpoint × List Capability)
    (reply : Except RegistryError (List Enrolment) → α) :
    ∃ f, Decides f reply .before (enrolAll service [a]) := by
  obtain ⟨f, henrol⟩ := decides_tryInventory (fun result => reply (result.map fun r => [r]))
    fun now inv => inv.enrol service a.1 a.2 now
  refine ⟨f, decides_bind henrol fun result => ?_⟩
  cases result with
  | error e => exact decides_pure _
  | ok r => exact decides_pure _

theorem publishedEndpoints_singleton {peer : Option Net.Ip} {a : Announcement}
    {endpoints : List Endpoint} (h : publishedEndpoints cfg peer [a] = .ok endpoints) :
    ∃ endpoint, endpoints = [endpoint] := by
  unfold publishedEndpoints at h
  rw [List.mapM_cons, List.mapM_nil] at h
  cases hhost : publishedHost a.host peer cfg.localIp with
  | error e =>
    rw [hhost] at h
    cases h
  | ok host =>
    rw [hhost] at h
    exact ⟨_, (Except.ok.inj h).symm⟩

theorem atomic_register {peer : Option Net.Ip} {r : RegisterRequest}
    (h : r.addresses.length ≤ 1) : ∃ f, Atomic f ((Call.register peer r).work cfg) := by
  unfold Call.work register
  dsimp only
  -- Refused for its form, or for a host that cannot be determined: no step at all.
  split
  · exact ⟨_, atomic_pure _⟩
  case isFalse hsome =>
    split
    · exact ⟨_, atomic_pure _⟩
    · split
      · exact ⟨_, atomic_pure _⟩
      case _ endpoints hendpoints =>
        -- There is one address, so there is one registration, and that decides.
        obtain ⟨a, haddresses⟩ : ∃ a, r.addresses = [a] :=
          List.length_eq_one_iff.1 (Nat.le_antisymm h (List.length_pos_iff.2 hsome))
        rw [haddresses] at hendpoints ⊢
        obtain ⟨endpoint, rfl⟩ := publishedEndpoints_singleton hendpoints
        obtain ⟨f, henrol⟩ := decides_enrolAll r.service (endpoint, a.capabilities)
          fun results => Reply.registered (results.map fun rs => ⟨lastId rs, [endpoint]⟩)
        refine ⟨f, atomic_of_decides (decides_bind henrol fun results => ?_)⟩
        cases results with
        | error e => exact decides_pure _
        | ok rs =>
          dsimp only
          split
          · exact decides_refresh _ _
          · exact decides_pure _

/-- A call that announces at most one address does all it does to the inventory at once. -/
theorem atomic_work (cfg : Settings) (c : Call) (h : c.isSingle = true) :
    ∃ f, Atomic f (c.work cfg) := by
  cases c with
  | register peer r => exact atomic_register (of_decide_eq_true h)
  | deregister r => exact atomic_deregister r
  | list r =>
    exact ⟨_, atomic_of_decides (decides_bind
      (decides_look (fun es => .listed (.ok (.ofEntries es))) _) fun _ => decides_pure _)⟩
  | target r =>
    exact ⟨_, atomic_of_decides (decides_bind
      (decides_look (fun ts => .listed (.ok (.ofTargets ts))) _) fun _ => decides_pure _)⟩
  | lookup r =>
    exact ⟨_, atomic_of_decides (decides_bind
      (decides_look (fun es => .found (lookupAnswer r.service.name es)) _)
      fun _ => decides_pure _)⟩
  | processShutdown peer r => exact atomic_processShutdown peer r
  | sweep =>
    exact ⟨_, atomic_of_decides
      (decides_onInventory Reply.swept fun now inv => inv.sweep cfg.policy now)⟩

end

/-! ## Serial answers -/

/-- Calls that announce at most one address each have the answers of a serial order, whatever
    order their steps are taken in, and leave the same inventory. In the serial order each of
    them is carried out at a reading of the clock that it took; some need no reading, because
    they are refused without a look at the inventory. -/
theorem calls_serializable (cfg : Settings) (calls : List Call)
    (hsingle : ∀ c ∈ calls, c.isSingle = true) (w : World) (ticks : List Tick)
    (replies : List Reply)
    (hreplies : (Crew.after ⟨w, calls.map (Call.work cfg)⟩ ticks).answers? = some replies) :
    ∃ order : List (Nat × UInt64), (order.map (·.1)).Perm (List.range calls.length) ∧
      (∀ e ∈ order, e ∈ Crew.readings ⟨w, calls.map (Call.work cfg)⟩ ticks ∨
        ∃ reply, (calls.map (Call.work cfg))[e.1]? = some (.done reply)) ∧
      (∀ k reply, replies[k]? = some reply →
        (k, reply) ∈ (serially (calls.map (Call.work cfg)) order w).1) ∧
      (serially (calls.map (Call.work cfg)) order w).2.inventory
        = (Crew.after ⟨w, calls.map (Call.work cfg)⟩ ticks).world.inventory := by
  have hatomic : ∀ x ∈ calls.map (Call.work cfg), ∃ f, Atomic f x := by
    intro x hx
    obtain ⟨c, hc, rfl⟩ := List.mem_map.1 hx
    exact atomic_work cfg c (hsingle c hc)
  have hserial := exists_serial hatomic w ticks hreplies
  rwa [List.length_map] at hserial

/-- A list, and a registration that begins before it and ends after it. -/
theorem calls_serializable_overlapping :
    let calls : List Call :=
      [.register none ⟨.named "kv", [⟨"node-1", 9000, [.tcp]⟩]⟩, .list {}, .sweep]
    let ticks : List Tick :=
      [.proceed 0, .proceed 1, .proceed 2, .drift ⟨2000, 0, {}⟩] ++ List.replicate 5 (.proceed 0)
        ++ [.proceed 2]
    let w : World := { clock := 1000, unixTime := 0 }
    let replies : List Reply :=
      [.registered (.ok ⟨1, [⟨"node-1", 9000⟩]⟩), .listed (.ok {}), .swept []]
    (Crew.after ⟨w, calls.map (Call.work {})⟩ ticks).answers? = some replies ∧
      ∃ order : List (Nat × UInt64), (order.map (·.1)).Perm (List.range calls.length) ∧
        ∀ k reply, replies[k]? = some reply →
          (k, reply) ∈ (serially (calls.map (Call.work {})) order w).1 := by
  intro calls ticks w replies
  have hreplies : (Crew.after ⟨w, calls.map (Call.work {})⟩ ticks).answers? = some replies := by
    decide +kernel
  obtain ⟨order, hperm, -, hsame, -⟩ :=
    calls_serializable {} calls (by decide) w ticks replies hreplies
  exact ⟨hreplies, order, hperm, hsame⟩

theorem order_of_two {order : List (Nat × UInt64)}
    (h : (order.map (·.1)).Perm (List.range 2)) :
    ∃ c d, order = [(0, c), (1, d)] ∨ order = [(1, c), (0, d)] := by
  have hlength : order.length = 2 := by
    rw [← List.length_map, h.length_eq, List.length_range]
  obtain ⟨⟨i, c⟩, ⟨j, d⟩, rfl⟩ := List.length_eq_two.1 hlength
  have hzero : 0 ∈ [i, j] := h.mem_iff.2 (by decide)
  have hone : 1 ∈ [i, j] := h.mem_iff.2 (by decide)
  simp only [List.mem_cons, List.not_mem_nil, or_false] at hzero hone
  have hpositions : i = 0 ∧ j = 1 ∨ i = 1 ∧ j = 0 := by omega
  rcases hpositions with ⟨rfl, rfl⟩ | ⟨rfl, rfl⟩
  · exact ⟨c, d, .inl rfl⟩
  · exact ⟨c, d, .inr rfl⟩

/-- A list shows the first of two addresses that a request is registering. In every serial
    order, at whatever readings of the clock, it shows both or none. -/
theorem list_between_addresses :
    ¬ ∀ (calls : List Call) (w : World) (ticks : List Tick) (replies : List Reply),
      w.inventory = .empty →
      (Crew.after ⟨w, calls.map (Call.work {})⟩ ticks).answers? = some replies →
      ∃ order : List (Nat × UInt64), (order.map (·.1)).Perm (List.range calls.length) ∧
        ∀ k reply, replies[k]? = some reply →
          (k, reply) ∈ (serially (calls.map (Call.work {})) order w).1 := by
  intro hserial
  let calls : List Call :=
    [.register none ⟨.named "kv", [⟨"node-1", 9000, [.tcp]⟩, ⟨"node-2", 9000, [.tcp]⟩]⟩, .list {}]
  let ticks : List Tick :=
    [.proceed 0, .proceed 0, .proceed 1] ++ List.replicate 6 (.proceed 0)
  let w : World := { clock := 1000, unixTime := 0 }
  let first : Address := ⟨"node-1", 9000, [.tcp]⟩
  let second : Address := ⟨"node-2", 9000, [.tcp]⟩
  let replies : List Reply := [.registered (.ok ⟨2, [⟨"node-1", 9000⟩, ⟨"node-2", 9000⟩]⟩),
    .listed (.ok ⟨[⟨.named "kv", [first]⟩]⟩)]
  have hreplies : (Crew.after ⟨w, calls.map (Call.work {})⟩ ticks).answers? = some replies := by
    decide +kernel
  obtain ⟨order, hperm, hsame⟩ := hserial calls w ticks replies rfl hreplies
  -- The list shows both when it comes last, and none when it comes first.
  have hlast : ∀ c d : UInt64, (serially (calls.map (Call.work {})) [(0, c), (1, d)] w).1
      = [(0, .registered (.ok ⟨2, [⟨"node-1", 9000⟩, ⟨"node-2", 9000⟩]⟩)),
        (1, .listed (.ok ⟨[⟨.named "kv", [first, second]⟩]⟩))] := fun _ _ => rfl
  have hfirst : ∀ c d : UInt64, (serially (calls.map (Call.work {})) [(1, c), (0, d)] w).1
      = [(1, .listed (.ok {})),
        (0, .registered (.ok ⟨2, [⟨"node-1", 9000⟩, ⟨"node-2", 9000⟩]⟩))] := fun _ _ => rfl
  have hlisted := hsame 1 _ rfl
  obtain ⟨c, d, rfl | rfl⟩ := order_of_two hperm
  · rw [hlast c d] at hlisted
    exact absurd hlisted (by decide)
  · rw [hfirst c d] at hlisted
    exact absurd hlisted (by decide)

end ServiceRegistry.Server
