/-
  ServiceRegistry.Proofs.Resolution

  Which instances a query finds, as a property of each instance and of the service under
  which it is stored.
-/
import ServiceRegistry.Proofs.Inventory.Instances
import ServiceRegistry.Resolution

namespace ServiceRegistry

/-! ## Targets -/

theorem mem_targets {inv : Inventory} {q : Query} {s : Service} {i : Instance} :
    (s, i) ∈ inv.targets q ↔ (s, i) ∈ inv.stored ∧ q.admits s = true ∧
      i.isVisible = true ∧ i.capabilities.contains q.capability = true := by
  simp only [Inventory.targets, resolve, List.mem_flatMap, List.mem_filter, List.mem_map,
    Bool.and_eq_true, Prod.mk.injEq, Inventory.mem_stored, Instance.offers]
  constructor
  · rintro ⟨e, ⟨he, hadmits⟩, j, ⟨hj, hvisible, hoffers⟩, rfl, rfl⟩
    exact ⟨⟨e, he, rfl, hj⟩, hadmits, hvisible, hoffers⟩
  · rintro ⟨⟨e, he, rfl, hi⟩, hadmits, hvisible, hoffers⟩
    exact ⟨e, ⟨he, hadmits⟩, i, ⟨hi, hvisible, hoffers⟩, rfl, rfl⟩

/-! ## Queries by deploy path -/

/-- The empty text has one segment, and a deploy path has four. -/
theorem pathAnswers_empty (requested : String) : pathAnswers "" requested = false := by
  have hsegments : Text.segments '/' "" = [""] := by decide
  simp only [pathAnswers, hsegments]

/-- A query by deploy path alone admits the services whose deploy path is meant. -/
theorem admits_ofTexts_path {s : Service} {c : Capability} {p : String} (hp : p ≠ "") :
    (Query.ofTexts c p "").admits s = true ↔
      ∃ d, s.path? = some d ∧ pathAnswers d p = true := by
  simp only [Query.ofTexts, hp, if_false, if_true, Query.admits, Option.all_some,
    Option.all_none, Bool.and_true]
  cases s.path? with
  | none =>
    simp only [Option.getD_none, pathAnswers_empty, Bool.false_eq_true, reduceCtorEq,
      false_and, exists_false]
  | some d => simp only [Option.getD_some, Option.some.injEq, exists_eq_left']

end ServiceRegistry
