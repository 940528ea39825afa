/-
  ServiceRegistry.Proofs.Inventory.Shown

  What there is to be seen, and that every view is made of it. `shown` lists the instances that
  are not disabled with the services of their entries, in order. A list, a lookup, the targets of
  a query, the candidates for probes and the groups for the scraper are all this one sequence,
  restricted to what was asked for; the groups also gather what has one name.

  Dormant entries and hidden instances therefore never make two views differ.
-/
import Mathlib.Data.List.Induction
import ServiceRegistry.Proofs.Inventory.Probing
import ServiceRegistry.Resolution

namespace ServiceRegistry.Inventory

/-! ## One sequence -/

/-- The instances that are not disabled, with the services of their entries. -/
def shown (inv : Inventory) : List (Service × Instance) := inv.stored.filter (!·.2.disabled)

/-- Entries restricted by their services, and their instances in turn, are what is stored
    restricted by both. -/
theorem flatMap_restricted (p : Service → Bool) (q : Instance → Bool) (inv : Inventory) :
    ((inv.entries.filter fun e => p e.service).flatMap
        fun e => (e.instances.filter q).map fun i => (e.service, i))
      = inv.stored.filter fun t => p t.1 && q t.2 := by
  unfold stored
  induction inv.entries with
  | nil => rfl
  | cons e es ih =>
    rw [List.flatMap_cons, List.filter_append, ← ih, List.filter_map, List.filter_cons]
    by_cases hp : p e.service = true
    · have hsame :
          ((fun t : Service × Instance => p t.1 && q t.2) ∘ fun i => (e.service, i)) = q := by
        funext i
        simp only [Function.comp_apply, hp, Bool.true_and]
      rw [if_pos hp, hsame, List.flatMap_cons]
    · have hnone : e.instances.filter
          ((fun t : Service × Instance => p t.1 && q t.2) ∘ fun i => (e.service, i)) = [] := by
        apply List.filter_eq_nil_iff.2
        intro i _
        simp only [Function.comp_apply, hp, Bool.false_and, Bool.false_eq_true, not_false_eq_true]
      rw [if_neg hp, hnone, List.map_nil, List.nil_append]

/-- What is shown of the services with a property. -/
theorem shown_filter (p : Service → Bool) (inv : Inventory) :
    inv.shown.filter (fun t => p t.1)
      = ((inv.entries.filter fun e => p e.service).map (·.visible)).flatMap
          fun e => e.instances.map fun i => (e.service, i) := by
  rw [shown, List.filter_filter, List.flatMap_map]
  exact (flatMap_restricted p (·.isVisible) inv).symm

/-! ## Views -/

theorem lookup_shown (inv : Inventory) (s : Service) :
    (inv.lookup s).flatMap (fun e => e.instances.map fun i => (e.service, i))
      = inv.shown.filter fun t => t.1.accepts s :=
  (shown_filter (·.accepts s) inv).symm

/-- Entries that show nothing contribute nothing. -/
theorem listing_shown (inv : Inventory) (name : Option String) :
    (inv.listing name).flatMap (fun e => e.instances.map fun i => (e.service, i))
      = inv.shown.filter fun t => name.all (t.1.name == ·) := by
  have hdormant : ∀ es : List Entry,
      (es.filter fun e => !e.instances.isEmpty).flatMap
          (fun e => e.instances.map fun i => (e.service, i))
        = es.flatMap fun e => e.instances.map fun i => (e.service, i) := by
    intro es
    induction es with
    | nil => rfl
    | cons e es ih =>
      rw [List.filter_cons, List.flatMap_cons, ← ih]
      cases hinstances : e.instances with
      | nil => rfl
      | cons i is =>
        rw [List.isEmpty_cons, Bool.not_false, if_pos rfl, List.flatMap_cons, hinstances]
  rw [listing, hdormant]
  exact (shown_filter (fun s => name.all (s.name == ·)) inv).symm

theorem targets_shown (inv : Inventory) (q : Query) :
    inv.targets q = inv.shown.filter fun t => q.admits t.1 && t.2.offers q.capability := by
  have h := flatMap_restricted q.admits (fun i => i.isVisible && i.offers q.capability) inv
  rw [targets, resolve, h, shown, List.filter_filter]
  apply List.filter_congr
  intro t _
  rw [Bool.and_assoc, Bool.and_comm t.2.isVisible, Instance.isVisible]

theorem candidates_shown (inv : Inventory) :
    inv.candidates = (inv.shown.filter (·.2.isProbeable)).map
      fun t => ⟨t.2.id, t.1.name, t.2.endpoint⟩ := by
  rw [candidates_eq, shown, List.filter_filter]
  rfl

end ServiceRegistry.Inventory

namespace ServiceRegistry

/-! ## Gathering by name -/

section

variable {α : Type} [BEq α] [LawfulBEq α]

/-- A value comes last among distinct ones when it occurs for the first time. -/
theorem eraseDups_snoc (xs : List α) (x : α) :
    (xs ++ [x]).eraseDups = if x ∈ xs then xs.eraseDups else xs.eraseDups ++ [x] := by
  rw [List.eraseDups_append]
  by_cases h : x ∈ xs
  · have hgone : [x].removeAll xs = [] := by simp [List.removeAll, h]
    rw [if_pos h, hgone, List.eraseDups_nil, List.append_nil]
  · have hleft : [x].removeAll xs = [x] := by simp [List.removeAll, h]
    rw [if_neg h, hleft, List.eraseDups_cons, List.filter_nil, List.eraseDups_nil]

theorem nodup_eraseDups (xs : List α) : xs.eraseDups.Nodup := by
  induction xs using List.reverseRecOn with
  | nil => exact List.nodup_nil
  | append_singleton xs x ih =>
    rw [eraseDups_snoc]
    split
    · exact ih
    · rename_i h
      rw [List.nodup_append]
      refine ⟨ih, List.nodup_singleton x, ?_⟩
      intro y hy z hz heq
      rw [List.mem_singleton] at hz
      subst hz
      subst heq
      exact h (List.mem_eraseDups.1 hy)

end

namespace ScrapeGroup

/-- The names under which candidates are scraped, each once and in the order of their first
    occurrence, with the addresses of the candidates of that name in theirs. -/
def gathered (cs : List Candidate) : List ScrapeGroup :=
  (cs.map fun c => scrapeName c.serviceName).eraseDups.map fun n =>
    ⟨n, (cs.filter fun c => scrapeName c.serviceName = n).map (·.endpoint.text)⟩

theorem gathered_names (cs : List Candidate) :
    (gathered cs).map (·.name) = (cs.map fun c => scrapeName c.serviceName).eraseDups := by
  simp only [gathered, List.map_map, Function.comp_def, List.map_id']

theorem gathered_names_nodup (cs : List Candidate) : ((gathered cs).map (·.name)).Nodup := by
  rw [gathered_names]
  exact nodup_eraseDups _

/-- A name is there because some candidate has it. -/
theorem addresses_ne_nil_of_gathered {cs : List Candidate} {g : ScrapeGroup}
    (h : g ∈ gathered cs) : g.addresses ≠ [] := by
  obtain ⟨n, hn, rfl⟩ := List.mem_map.1 h
  obtain ⟨c, hc, hname⟩ := List.mem_map.1 (List.mem_eraseDups.1 hn)
  have hmem : c ∈ cs.filter fun c => scrapeName c.serviceName = n :=
    List.mem_filter.2 ⟨hc, decide_eq_true hname⟩
  intro hnil
  rw [List.map_eq_nil_iff] at hnil
  rw [hnil] at hmem
  exact absurd hmem List.not_mem_nil

theorem insert_of_not_mem {name : String} (address : String) {gs : List ScrapeGroup}
    (h : name ∉ gs.map (·.name)) : insert name address gs = gs ++ [⟨name, [address]⟩] := by
  induction gs with
  | nil => rfl
  | cons g gs ih =>
    rw [List.map_cons, List.mem_cons, not_or] at h
    rw [insert, if_neg (Ne.symm h.1), ih h.2]
    rfl

/-- An address joins the one group of its name, and the others stay as they are. -/
theorem insert_of_mem {name : String} (address : String) {gs : List ScrapeGroup}
    (hnodup : (gs.map (·.name)).Nodup) (h : name ∈ gs.map (·.name)) :
    insert name address gs = gs.map fun g =>
      if g.name = name then { g with addresses := g.addresses ++ [address] } else g := by
  induction gs with
  | nil => cases h
  | cons g gs ih =>
    rw [List.map_cons, List.nodup_cons] at hnodup
    rw [insert, List.map_cons]
    by_cases hname : g.name = name
    · subst hname
      have hrest : ∀ g' ∈ gs, (if g'.name = g.name then
          { g' with addresses := g'.addresses ++ [address] } else g') = g' := by
        intro g' hg'
        apply if_neg
        intro heq
        exact hnodup.1 (heq ▸ List.mem_map_of_mem hg')
      rw [if_pos rfl, if_pos rfl, List.map_congr_left hrest, List.map_id']
    · have hmem : name ∈ gs.map (·.name) :=
        (List.mem_cons.1 h).resolve_left (Ne.symm hname)
      rw [if_neg hname, if_neg hname, ih hnodup.2 hmem]

/-- One more candidate: its address joins the group of its name, or makes a new one. -/
theorem gathered_snoc (cs : List Candidate) (c : Candidate) :
    gathered (cs ++ [c])
      = insert (scrapeName c.serviceName) c.endpoint.text (gathered cs) := by
  have hmem : scrapeName c.serviceName ∈ (gathered cs).map (·.name) ↔
      scrapeName c.serviceName ∈ cs.map fun c => scrapeName c.serviceName := by
    rw [gathered_names, List.mem_eraseDups]
  -- The addresses of one name, with the new candidate or without.
  have hfilter : ∀ n, ((cs ++ [c]).filter fun c => scrapeName c.serviceName = n).map
      (·.endpoint.text)
        = (cs.filter fun c => scrapeName c.serviceName = n).map (·.endpoint.text)
          ++ if scrapeName c.serviceName = n then [c.endpoint.text] else [] := by
    intro n
    rw [List.filter_append, List.map_append, List.filter_cons, List.filter_nil]
    by_cases hn : scrapeName c.serviceName = n
    · simp [hn]
    · simp [hn]
  unfold gathered
  rw [List.map_append, List.map_singleton, eraseDups_snoc]
  by_cases h : scrapeName c.serviceName ∈ cs.map fun c => scrapeName c.serviceName
  · have hinsert := insert_of_mem c.endpoint.text (gathered_names_nodup cs) (hmem.2 h)
    unfold gathered at hinsert
    rw [if_pos h, hinsert, List.map_map]
    apply List.map_congr_left
    intro n _
    rw [hfilter, Function.comp_apply]
    by_cases hn : scrapeName c.serviceName = n
    · rw [if_pos hn, if_pos hn.symm]
    · rw [if_neg hn, if_neg (Ne.symm hn), List.append_nil]
  · have hinsert := insert_of_not_mem c.endpoint.text (mt hmem.1 h)
    unfold gathered at hinsert
    have hnone : cs.filter (fun d => scrapeName d.serviceName = scrapeName c.serviceName) = [] := by
      apply List.filter_eq_nil_iff.2
      intro d hd
      rw [decide_eq_true_eq]
      exact fun heq => h (heq ▸ List.mem_map_of_mem hd)
    rw [if_neg h, hinsert, List.map_append, List.map_singleton, hfilter, hnone, if_pos rfl]
    congr 1
    apply List.map_congr_left
    intro n hn
    have hne : ¬ scrapeName c.serviceName = n := by
      rintro rfl
      exact h (List.mem_eraseDups.1 hn)
    rw [hfilter, if_neg hne, List.append_nil]

theorem foldl_insert_eq (cs : List Candidate) :
    cs.foldl (fun gs c => insert (scrapeName c.serviceName) c.endpoint.text gs) []
      = gathered cs := by
  induction cs using List.reverseRecOn with
  | nil => rfl
  | append_singleton cs c ih =>
    rw [List.foldl_append, ih, gathered_snoc]
    rfl

end ScrapeGroup

namespace Inventory

theorem scrapeGroups_eq (inv : Inventory) :
    inv.scrapeGroups = ScrapeGroup.gathered inv.candidates :=
  ScrapeGroup.foldl_insert_eq inv.candidates

/-- Two services are scraped under one name, although another was registered between them. -/
example : (Inventory.mk
    [⟨.named "web.a", [.enrolled 1 ⟨"h", 1⟩ [.status] 0]⟩,
      ⟨.named "db", [.enrolled 2 ⟨"h", 2⟩ [.status, .grpc] 0, .enrolled 3 ⟨"h", 3⟩ [.tcp] 0]⟩,
      ⟨.named "web.b", [.enrolled 4 ⟨"h", 4⟩ [.status] 0]⟩] 4).scrapeGroups
    = [⟨"web", ["h:1", "h:4"]⟩, ⟨"db", ["h:2"]⟩] := by decide +kernel

end Inventory

end ServiceRegistry
