/-
  ServiceRegistry.Proofs.Inventory.Provenance

  Where stored instances come from. A ledger records, in the order of the creations, the
  number of each new instance and the service that its registration announced. The service
  under which an instance is stored need not be the announced one, but the ledger determines
  its deploy path: the first registration of a name decides whether the name has deploy
  paths at all, and lends its own to those that announce none (`effectivePath`).
-/
import Mathlib.Data.List.Nodup
import ServiceRegistry.Proofs.Inventory.WellFormed

namespace ServiceRegistry.Inventory

/-! ## Ledgers -/

/-- The numbers of the instances created, in order, with the services announced for them. -/
abbrev Ledger : Type := List (InstanceId × Service)

/-- The first service announced under a name. -/
def Ledger.first? (made : Ledger) (name : String) : Option Service :=
  (made.map (·.2)).find? (·.name == name)

/-- The deploy path that an instance has in effect, given the service announced for it. -/
def Ledger.effectivePath (made : Ledger) (announced : Service) : Option String :=
  announced.scope (made.first? announced.name)

section

variable {made : Ledger} {announced : Service} {id : InstanceId}

theorem Ledger.first?_append (made more : Ledger) (name : String) :
    Ledger.first? (made ++ more) name = (made.first? name).or (Ledger.first? more name) := by
  simp only [first?, List.map_append, List.find?_append]

theorem Ledger.exists_first? (h : (id, announced) ∈ made) :
    ∃ first, made.first? announced.name = some first := by
  have hmem : announced ∈ made.map (·.2) := List.mem_map.2 ⟨_, h, rfl⟩
  have hsome : (made.first? announced.name).isSome = true :=
    List.find?_isSome.2 ⟨announced, hmem, by simp only [BEq.rfl]⟩
  exact Option.isSome_iff_exists.1 hsome

/-- Later creations do not change the deploy path of an instance. -/
theorem Ledger.effectivePath_append (h : (id, announced) ∈ made) (more : Ledger) :
    Ledger.effectivePath (made ++ more) announced = made.effectivePath announced := by
  obtain ⟨first, hfirst⟩ := Ledger.exists_first? h
  rw [effectivePath, effectivePath, Ledger.first?_append, hfirst, Option.some_or]

/-- The deploy path of a new instance is that of the place the announced service has. -/
theorem Ledger.effectivePath_append_self (made : Ledger) (id : InstanceId)
    (announced : Service) :
    Ledger.effectivePath (made ++ [(id, announced)]) announced =
      announced.scope (made.first? announced.name) := by
  rw [effectivePath, Ledger.first?_append]
  cases hfirst : made.first? announced.name with
  | some first => rw [Option.some_or]
  | none =>
    have hself : Ledger.first? [(id, announced)] announced.name = some announced := by
      simp only [first?, List.map_cons, List.map_nil, List.find?_cons, BEq.rfl]
    rw [Option.none_or, hself, Service.scope_self, Service.scope]

end

/-! ## The ledger of an inventory -/

/-- The ledger tells the truth about the inventory. -/
structure Recorded (made : Ledger) (inv : Inventory) : Prop where
  wellFormed : inv.WellFormed
  /-- Numbers are given out one after the other, beginning at one. -/
  numbers : made.map (·.1.toNat) = List.range' 1 made.length
  lastId_eq : inv.lastId.toNat = made.length
  /-- The first entry of a name has the service first announced under it. -/
  firsts : ∀ name, inv.services.find? (·.name == name) = made.first? name
  /-- Stored instances were created, and lie under their deploy paths in effect. -/
  placed : ∀ s i, (s, i) ∈ inv.stored →
    ∃ announced, (i.id, announced) ∈ made ∧ s.path? = made.effectivePath announced

theorem recorded_empty : Recorded [] empty where
  wellFormed := wellFormed_empty
  numbers := rfl
  lastId_eq := rfl
  firsts := fun _ => rfl
  placed := by intro s i h; cases h

section

variable {policy : Policy} {m : Moment} {made : Ledger}

/-- No number is recorded twice. -/
theorem Recorded.unique {inv : Inventory} (h : Recorded made inv) {id : InstanceId}
    {a b : Service} (ha : (id, a) ∈ made) (hb : (id, b) ∈ made) : a = b := by
  -- Numbers given out one after the other are distinct.
  have hnodup : (made.map (·.1.toNat)).Nodup := by
    rw [h.numbers]
    exact List.nodup_range'
  exact (Prod.mk.inj (List.inj_on_of_nodup_map hnodup ha hb rfl)).2

theorem Recorded.of_not_creates (h : Recorded made m.met) (hc : m.creates policy = false) :
    Recorded made (m.after policy) := by
  have hsound : m.Sound policy := ⟨h.wellFormed, by simp [hc]⟩
  have hafter := Moment.after_eq h.wellFormed.ids_nodup hc
  refine ⟨hsound.wellFormed_after, h.numbers, ?_, ?_, ?_⟩
  · rw [lastId_after_of_not_creates h.wellFormed hc]
    exact h.lastId_eq
  · intro name
    rw [hafter, retain_services, amend_services]
    exact h.firsts name
  · intro s j hj
    rw [hafter, mem_stored_retain, mem_stored_amend] at hj
    obtain ⟨⟨i, hi, rfl⟩, -⟩ := hj
    rw [(Moment.sameRegistration_touch policy m i).id_eq]
    exact h.placed s i hi

theorem Recorded.of_creates (h : Recorded made m.met) {service : Service} {endpoint : Endpoint}
    {capabilities : List Capability} {i : Instance}
    (hcreation : Moment.Creation policy m service endpoint capabilities i)
    (hroom : made.length + 1 < UInt64.size) :
    Recorded (made ++ [(i.id, service)]) (m.after policy) := by
  have hlast : (m.met.lastId + 1).toNat = made.length + 1 := by
    rw [toNat_succ (by rw [h.lastId_eq]; exact hroom), h.lastId_eq]
  have hsound : m.Sound policy := ⟨h.wellFormed, fun _ => by rw [h.lastId_eq]; exact hroom⟩
  refine ⟨hsound.wellFormed_after, ?_, ?_, ?_, ?_⟩
  · -- The new instance has the number that continues the range.
    rw [List.map_append, h.numbers, List.map_singleton, hcreation.id_eq, hlast,
      List.length_append, List.length_singleton, List.range'_1_concat, Nat.add_comm 1]
  · rw [hcreation.lastId_eq, hlast, List.length_append, List.length_singleton]
  · intro name
    rw [Ledger.first?_append, ← h.firsts name]
    rcases hcreation.services_eq with heq | ⟨-, heq⟩
    · rw [heq]
      cases hfind : m.met.services.find? (·.name == name) with
      | some first => rw [Option.some_or]
      | none =>
        -- An entry took the instance in, so its name has been announced before.
        have hplace := mem_services_of_stored
          (hcreation.stored_perm.mem_iff.2 List.mem_cons_self)
        rw [heq] at hplace
        have hname := List.find?_eq_none.1 hfind _ hplace
        rw [Service.name_place] at hname
        simp only [Ledger.first?, List.map_cons, List.map_nil, List.find?_cons, hname,
          List.find?_nil, Option.none_or]
    · -- A new entry and the ledger grow by the same service.
      rw [heq, List.find?_append]
      rfl
  · intro s j hj
    rcases List.mem_cons.1 (hcreation.stored_perm.mem_iff.1 hj) with heq | hj
    · -- The new instance is where its service is placed, as the ledger before it says.
      obtain ⟨rfl, rfl⟩ := Prod.mk.inj heq
      refine ⟨service, List.mem_append_right _ List.mem_cons_self, ?_⟩
      rw [Ledger.effectivePath_append_self, ← h.firsts]
      exact h.wellFormed.services_apart.path?_place service
    · obtain ⟨announced, hmem, hpath⟩ := h.placed s j hj
      refine ⟨announced, List.mem_append_left _ hmem, ?_⟩
      rw [hpath, Ledger.effectivePath_append hmem]

end

end ServiceRegistry.Inventory
