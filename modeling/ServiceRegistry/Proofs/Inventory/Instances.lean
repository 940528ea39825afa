/-
  ServiceRegistry.Proofs.Inventory.Instances

  The instances of an inventory seen apart from their entries, and the two ways in which
  stored instances change: each is rewritten in place (`amend`), or some are left out
  (`retain`). Entries and the last number given are the same afterwards.

  An operation on one instance rewrites the first one with its number. Where numbers are
  distinct this is the same as rewriting every instance with that number
  (`Replaced.eq_amend`), which needs no position in the list.
-/
import ServiceRegistry.Inventory.Basic

namespace ServiceRegistry.Inventory

/-! ## Instances and their numbers -/

/-- All instances, hidden ones included. -/
def instances (inv : Inventory) : List Instance := inv.entries.flatMap (·.instances)

/-- The numbers of all instances. -/
def ids (inv : Inventory) : List InstanceId := inv.instances.map (·.id)

theorem mem_stored {inv : Inventory} {s : Service} {i : Instance} :
    (s, i) ∈ inv.stored ↔ ∃ e ∈ inv.entries, e.service = s ∧ i ∈ e.instances := by
  simp only [stored, List.mem_flatMap, List.mem_map, Prod.mk.injEq]
  constructor
  · rintro ⟨e, he, j, hj, rfl, rfl⟩
    exact ⟨e, he, rfl, hj⟩
  · rintro ⟨e, he, rfl, hi⟩
    exact ⟨e, he, i, hi, rfl, rfl⟩

theorem stored_map_snd (inv : Inventory) : inv.stored.map (·.2) = inv.instances := by
  simp only [stored, instances, List.map_flatMap, List.map_map, Function.comp_def, List.map_id']

theorem size_eq_length (inv : Inventory) : inv.size = inv.instances.length := by
  rw [← stored_map_snd, List.length_map]
  rfl

theorem mem_instances {inv : Inventory} {i : Instance} :
    i ∈ inv.instances ↔ ∃ s, (s, i) ∈ inv.stored := by
  rw [← stored_map_snd]
  simp only [List.mem_map, Prod.exists]
  constructor
  · rintro ⟨s, j, hj, rfl⟩
    exact ⟨s, hj⟩
  · rintro ⟨s, hi⟩
    exact ⟨s, i, hi, rfl⟩

theorem mem_ids {inv : Inventory} {id : InstanceId} :
    id ∈ inv.ids ↔ ∃ s i, (s, i) ∈ inv.stored ∧ i.id = id := by
  simp only [ids, List.mem_map, mem_instances]
  constructor
  · rintro ⟨i, ⟨s, hi⟩, hid⟩
    exact ⟨s, i, hi, hid⟩
  · rintro ⟨s, i, hi, hid⟩
    exact ⟨i, ⟨s, hi⟩, hid⟩

theorem stored_map_id (inv : Inventory) : inv.stored.map (·.2.id) = inv.ids := by
  rw [ids, ← stored_map_snd, List.map_map]
  rfl

theorem id_mem_ids {inv : Inventory} {s : Service} {i : Instance} (h : (s, i) ∈ inv.stored) :
    i.id ∈ inv.ids :=
  mem_ids.2 ⟨s, i, h, rfl⟩

theorem find?_eq_none {inv : Inventory} {id : InstanceId} (h : id ∉ inv.ids) :
    inv.find? id = none := by
  apply List.find?_eq_none.2
  intro i hi heq
  exact h (List.mem_map.2 ⟨i, hi, by simpa using heq⟩)

/-- Two states of one instance: nothing differs that is fixed when it is registered. -/
structure SameRegistration (i j : Instance) : Prop where
  id_eq : j.id = i.id
  endpoint_eq : j.endpoint = i.endpoint
  capabilities_eq : j.capabilities = i.capabilities
  firstRegistered_eq : j.firstRegistered = i.firstRegistered

theorem SameRegistration.refl (i : Instance) : SameRegistration i i := ⟨rfl, rfl, rfl, rfl⟩

theorem SameRegistration.trans {i j k : Instance} (hij : SameRegistration i j)
    (hjk : SameRegistration j k) : SameRegistration i k where
  id_eq := hjk.id_eq.trans hij.id_eq
  endpoint_eq := hjk.endpoint_eq.trans hij.endpoint_eq
  capabilities_eq := hjk.capabilities_eq.trans hij.capabilities_eq
  firstRegistered_eq := hjk.firstRegistered_eq.trans hij.firstRegistered_eq

theorem sameRegistration_refreshed (i : Instance) (now : UInt64) :
    SameRegistration i (i.refreshed now) := ⟨rfl, rfl, rfl, rfl⟩

theorem sameRegistration_hidden (i : Instance) : SameRegistration i i.hidden :=
  ⟨rfl, rfl, rfl, rfl⟩

theorem sameRegistration_probed (i : Instance) (success : Bool) (now : UInt64) :
    SameRegistration i (i.probed success now) := by
  cases success <;> exact ⟨rfl, rfl, rfl, rfl⟩

/-! ## Rewriting and leaving out -/

/-- Every instance rewritten. -/
def amend (inv : Inventory) (f : Instance → Instance) : Inventory :=
  { inv with entries := inv.entries.map fun e => { e with instances := e.instances.map f } }

/-- Only the instances with a property. -/
def retain (inv : Inventory) (p : Instance → Bool) : Inventory :=
  { inv with entries := inv.entries.map fun e => { e with instances := e.instances.filter p } }

/-- The services of the entries, in order. -/
def services (inv : Inventory) : List Service := inv.entries.map (·.service)

theorem mem_services_of_stored {inv : Inventory} {s : Service} {i : Instance}
    (h : (s, i) ∈ inv.stored) : s ∈ inv.services := by
  obtain ⟨e, he, rfl, -⟩ := mem_stored.1 h
  exact List.mem_map_of_mem he

@[simp] theorem amend_lastId (inv : Inventory) (f : Instance → Instance) :
    (inv.amend f).lastId = inv.lastId := rfl

@[simp] theorem retain_lastId (inv : Inventory) (p : Instance → Bool) :
    (inv.retain p).lastId = inv.lastId := rfl

@[simp] theorem amend_services (inv : Inventory) (f : Instance → Instance) :
    (inv.amend f).services = inv.services := by
  simp only [services, amend, List.map_map, Function.comp_def]

@[simp] theorem retain_services (inv : Inventory) (p : Instance → Bool) :
    (inv.retain p).services = inv.services := by
  simp only [services, retain, List.map_map, Function.comp_def]

theorem amend_instances (inv : Inventory) (f : Instance → Instance) :
    (inv.amend f).instances = inv.instances.map f := by
  simp only [instances, amend, List.flatMap_map, List.map_flatMap]

theorem retain_instances (inv : Inventory) (p : Instance → Bool) :
    (inv.retain p).instances = inv.instances.filter p := by
  simp only [instances, retain, List.flatMap_map, List.filter_flatMap]

theorem mem_stored_amend {inv : Inventory} {f : Instance → Instance} {s : Service}
    {j : Instance} : (s, j) ∈ (inv.amend f).stored ↔ ∃ i, (s, i) ∈ inv.stored ∧ f i = j := by
  simp only [mem_stored, amend, List.mem_map]
  constructor
  · rintro ⟨_, ⟨e, he, rfl⟩, rfl, hj⟩
    obtain ⟨i, hi, rfl⟩ := List.mem_map.1 hj
    exact ⟨i, ⟨e, he, rfl, hi⟩, rfl⟩
  · rintro ⟨i, ⟨e, he, rfl, hi⟩, rfl⟩
    exact ⟨_, ⟨e, he, rfl⟩, rfl, List.mem_map_of_mem hi⟩

theorem mem_stored_retain {inv : Inventory} {p : Instance → Bool} {s : Service} {i : Instance} :
    (s, i) ∈ (inv.retain p).stored ↔ (s, i) ∈ inv.stored ∧ p i = true := by
  simp only [mem_stored, retain, List.mem_map]
  constructor
  · rintro ⟨_, ⟨e, he, rfl⟩, rfl, hi⟩
    obtain ⟨hi, hp⟩ := List.mem_filter.1 hi
    exact ⟨⟨e, he, rfl, hi⟩, hp⟩
  · rintro ⟨⟨e, he, rfl, hi⟩, hp⟩
    exact ⟨_, ⟨e, he, rfl⟩, rfl, List.mem_filter.2 ⟨hi, hp⟩⟩

theorem stored_retain (inv : Inventory) (p : Instance → Bool) :
    (inv.retain p).stored = inv.stored.filter fun q => p q.2 := by
  simp only [stored, retain, List.flatMap_map, List.filter_flatMap, List.filter_map,
    Function.comp_def]

theorem amend_amend (inv : Inventory) (f g : Instance → Instance) :
    (inv.amend f).amend g = inv.amend fun i => g (f i) := by
  simp only [amend, List.map_map, Function.comp_def]

theorem retain_retain (inv : Inventory) (p q : Instance → Bool) :
    (inv.retain p).retain q = inv.retain fun i => q i && p i := by
  simp only [retain, List.map_map, Function.comp_def, List.filter_filter]

theorem amend_ids {f : Instance → Instance} (hf : ∀ i, (f i).id = i.id) (inv : Inventory) :
    (inv.amend f).ids = inv.ids := by
  simp only [ids, amend_instances, List.map_map, Function.comp_def, hf]

theorem retain_ids_sublist (inv : Inventory) (p : Instance → Bool) :
    (inv.retain p).ids.Sublist inv.ids := by
  simp only [ids, retain_instances]
  exact List.filter_sublist.map _

theorem amend_congr {inv : Inventory} {f g : Instance → Instance}
    (h : ∀ i ∈ inv.instances, f i = g i) : inv.amend f = inv.amend g := by
  have hentries : ∀ e ∈ inv.entries, e.instances.map f = e.instances.map g := by
    intro e he
    exact List.map_congr_left fun i hi => h i (List.mem_flatMap.2 ⟨e, he, hi⟩)
  simp only [amend]
  congr 1
  apply List.map_congr_left
  intro e he
  rw [hentries e he]

theorem amend_self (inv : Inventory) : inv.amend (fun i => i) = inv := by
  simp only [amend, List.map_id']

theorem amend_eq_self {inv : Inventory} {f : Instance → Instance}
    (h : ∀ i ∈ inv.instances, f i = i) : inv.amend f = inv := by
  rw [amend_congr h, amend_self]

theorem retain_eq_self {inv : Inventory} {p : Instance → Bool}
    (h : ∀ i ∈ inv.instances, p i = true) : inv.retain p = inv := by
  have hentries : ∀ e ∈ inv.entries, e.instances.filter p = e.instances := by
    intro e he
    exact List.filter_eq_self.2 fun i hi => h i (List.mem_flatMap.2 ⟨e, he, hi⟩)
  have hmap : inv.entries.map (fun e => { e with instances := e.instances.filter p })
      = inv.entries.map fun e => e :=
    List.map_congr_left fun e he => by rw [hentries e he]
  simp only [retain, hmap, List.map_id']

/-! ## One instance replaced -/

/-- One instance of one entry gives way to another in its place. -/
def Replaced (i j : Instance) (es fs : List Entry) : Prop :=
  ∃ before e after older newer,
    e.instances = older ++ i :: newer ∧
    es = before ++ e :: after ∧
    fs = before ++ { e with instances := older ++ j :: newer } :: after

/-- Rewrites an instance if it has a number. -/
def onlyAt (id : InstanceId) (f : Instance → Instance) (i : Instance) : Instance :=
  if i.id = id then f i else i

theorem sameRegistration_onlyAt {f : Instance → Instance} (hf : ∀ i, SameRegistration i (f i))
    (id : InstanceId) (i : Instance) : SameRegistration i (onlyAt id f i) := by
  unfold onlyAt
  split
  · exact hf i
  · exact .refl i

theorem map_onlyAt_of_ne {id : InstanceId} {f : Instance → Instance} {is : List Instance}
    (h : ∀ i ∈ is, i.id ≠ id) : is.map (onlyAt id f) = is := by
  have hmap : is.map (onlyAt id f) = is.map fun i => i :=
    List.map_congr_left fun i hi => if_neg (h i hi)
  rw [hmap, List.map_id']

theorem amend_onlyAt_of_not_mem {inv : Inventory} {id : InstanceId} (f : Instance → Instance)
    (h : id ∉ inv.ids) : inv.amend (onlyAt id f) = inv := by
  apply amend_eq_self
  intro i hi
  exact if_neg fun heq => h (List.mem_map.2 ⟨i, hi, heq⟩)

theorem map_amend_of_ne {id : InstanceId} {f : Instance → Instance} {es : List Entry}
    (h : ∀ e ∈ es, ∀ i ∈ e.instances, i.id ≠ id) :
    es.map (fun e => { e with instances := e.instances.map (onlyAt id f) }) = es := by
  have hmap : es.map (fun e => { e with instances := e.instances.map (onlyAt id f) })
      = es.map fun e => e :=
    List.map_congr_left fun e he => by rw [map_onlyAt_of_ne (h e he)]
  rw [hmap, List.map_id']

/-- Where numbers are distinct, replacing an instance is rewriting all with its number. -/
theorem Replaced.eq_amend {inv : Inventory} {i : Instance} {f : Instance → Instance}
    {fs : List Entry} (h : Replaced i (f i) inv.entries fs) (hn : inv.ids.Nodup) :
    { inv with entries := fs } = inv.amend (onlyAt i.id f) := by
  obtain ⟨before, e, after, older, newer, hinstances, hes, rfl⟩ := h
  -- The numbers in order, with that of the replaced instance in the middle.
  have hids : inv.ids = (before.flatMap (fun d => d.instances.map (·.id)) ++ older.map (·.id))
      ++ i.id :: (newer.map (·.id) ++ after.flatMap fun d => d.instances.map (·.id)) := by
    simp only [ids, instances, hes, List.flatMap_append, List.flatMap_cons, hinstances,
      List.map_append, List.map_cons, List.map_flatMap, List.append_assoc, List.cons_append]
  rw [hids, List.nodup_append, List.nodup_cons] at hn
  obtain ⟨-, ⟨hright, -⟩, hleft⟩ := hn
  simp only [List.mem_append, not_or, List.mem_flatMap, List.mem_map, not_exists,
    not_and] at hright
  -- No other instance has the number, so only the replaced one is rewritten.
  have hbefore : ∀ d ∈ before, ∀ k ∈ d.instances, k.id ≠ i.id := by
    intro d hd k hk
    refine hleft k.id (List.mem_append_left _ ?_) i.id List.mem_cons_self
    exact List.mem_flatMap.2 ⟨d, hd, List.mem_map_of_mem hk⟩
  have holder : ∀ k ∈ older, k.id ≠ i.id := by
    intro k hk
    exact hleft k.id (List.mem_append_right _ (List.mem_map_of_mem hk)) i.id List.mem_cons_self
  have hnewer : ∀ k ∈ newer, k.id ≠ i.id := fun k hk => hright.1 k hk
  have hafter : ∀ d ∈ after, ∀ k ∈ d.instances, k.id ≠ i.id :=
    fun d hd k hk => hright.2 d hd k hk
  have hself : onlyAt i.id f i = f i := if_pos rfl
  simp only [amend, hes, List.map_append, List.map_cons, hinstances, map_amend_of_ne hbefore,
    map_amend_of_ne hafter, map_onlyAt_of_ne holder, map_onlyAt_of_ne hnewer, hself]

end ServiceRegistry.Inventory
