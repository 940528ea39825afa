/-
  ServiceRegistry.Proofs.Targets

  What a query finds, exactly. A deploy path is four segments between slashes, and a query by
  path means it if it gives all of it, leaves out the build, or gives `latest` for the build
  (`pathAnswers_iff`). The targets of a query are what is stored, in order, restricted to what
  the query asks for (`targets_eq_filter`), so queries are compared by what they ask for.
-/
import ServiceRegistry.Proofs.Acceptance
import ServiceRegistry.Proofs.Inventory.Shown
import ServiceRegistry.Proofs.Resolution
import ServiceRegistry.Proofs.Text.Segments

namespace ServiceRegistry

open Text

/-! ## Deploy paths -/

/-- A namespace, a group, a repository and a build, none of which has a slash. -/
structure DeployPath where
  space : String
  group : String
  repository : String
  build : String
  slashless : ∀ s ∈ [space, group, repository, build], '/' ∉ s.toList

namespace DeployPath

/-- All but the build. -/
def trunk (d : DeployPath) : String := d.space ++ "/" ++ d.group ++ "/" ++ d.repository

def text (d : DeployPath) : String := d.trunk ++ "/" ++ d.build

/-- A queried path leaves the build out, gives it, or gives `latest` in its place. -/
def MeantBy (d : DeployPath) (requested : String) : Prop :=
  requested = d.trunk ∨ requested = d.text ∨ requested = d.trunk ++ "/" ++ latest

theorem segments_trunk (d : DeployPath) :
    segments '/' d.trunk = [d.space, d.group, d.repository] := by
  refine segments_eq_iff.2 ⟨List.cons_ne_nil _ _, fun s hs => d.slashless s ?_, rfl⟩
  exact List.mem_append_left [d.build] hs

theorem segments_text (d : DeployPath) :
    segments '/' d.text = [d.space, d.group, d.repository, d.build] :=
  segments_eq_iff.2 ⟨List.cons_ne_nil _ _, d.slashless, rfl⟩

end DeployPath

theorem segments_latest : segments '/' latest = [latest] := by decide

/-- What is below a path follows it. -/
theorem segments_slash (path below : String) :
    segments '/' (path ++ "/" ++ below) = segments '/' path ++ segments '/' below :=
  segments_append path below

/-- A path is meant segment by segment. -/
theorem pathAnswers_iff_segments {actual requested : String} :
    pathAnswers actual requested = true ↔
      ∃ a b c d, segments '/' actual = [a, b, c, d] ∧
        (segments '/' requested = [a, b, c] ∨ segments '/' requested = [a, b, c, d] ∨
          segments '/' requested = [a, b, c, latest]) := by
  constructor
  · intro h
    unfold pathAnswers at h
    split at h
    case h_1 a b c d p q r hactual hrequested =>
      simp only [Bool.and_eq_true, beq_iff_eq] at h
      obtain ⟨⟨rfl, rfl⟩, rfl⟩ := h
      exact ⟨p, q, r, d, hactual, .inl hrequested⟩
    case h_2 a b c d p q r s hactual hrequested =>
      simp only [Bool.and_eq_true, Bool.or_eq_true, beq_iff_eq] at h
      obtain ⟨⟨⟨rfl, rfl⟩, rfl⟩, rfl | rfl⟩ := h
      · exact ⟨p, q, r, d, hactual, .inr (.inr hrequested)⟩
      · exact ⟨p, q, r, s, hactual, .inr (.inl hrequested)⟩
    case h_3 => cases h
  · rintro ⟨a, b, c, d, hactual, hrequested | hrequested | hrequested⟩ <;>
      simp only [pathAnswers, hactual, hrequested, BEq.rfl, Bool.and_self, Bool.or_true,
        Bool.true_or]

/-- A queried path means a deploy path, in full, without its build, or with any. -/
theorem pathAnswers_iff {actual requested : String} :
    pathAnswers actual requested = true ↔
      ∃ d : DeployPath, actual = d.text ∧ d.MeantBy requested := by
  rw [pathAnswers_iff_segments]
  constructor
  · rintro ⟨a, b, c, d, hactual, hrequested⟩
    -- The segments are joined to the text again, so they are those of a deploy path.
    obtain ⟨-, hslashless, htext⟩ := segments_eq_iff.1 hactual
    refine ⟨⟨a, b, c, d, hslashless⟩, htext.symm, ?_⟩
    rcases hrequested with hrequested | hrequested | hrequested
    · exact .inl (segments_eq_iff.1 hrequested).2.2.symm
    · exact .inr (.inl (segments_eq_iff.1 hrequested).2.2.symm)
    · exact .inr (.inr (segments_eq_iff.1 hrequested).2.2.symm)
  · rintro ⟨d, rfl, hrequested⟩
    refine ⟨d.space, d.group, d.repository, d.build, d.segments_text, ?_⟩
    rcases hrequested with rfl | rfl | rfl
    · exact .inl d.segments_trunk
    · exact .inr (.inl d.segments_text)
    · right; right
      rw [segments_slash, d.segments_trunk, segments_latest]
      rfl

theorem count_of_segments {path : String} {ss : List String} (h : segments '/' path = ss) :
    path.toList.count '/' + 1 = ss.length := by
  rw [← h, length_segments]

/-- Three slashes are in a path that is meant, and two or three in one that means it. -/
theorem count_of_pathAnswers {actual requested : String} (h : pathAnswers actual requested = true) :
    actual.toList.count '/' = 3 ∧
      (requested.toList.count '/' = 2 ∨ requested.toList.count '/' = 3) := by
  obtain ⟨a, b, c, d, hactual, hrequested⟩ := pathAnswers_iff_segments.1 h
  refine ⟨Nat.succ.inj (count_of_segments hactual), ?_⟩
  rcases hrequested with hrequested | hrequested | hrequested
  · exact .inl (Nat.succ.inj (count_of_segments hrequested))
  · exact .inr (Nat.succ.inj (count_of_segments hrequested))
  · exact .inr (Nat.succ.inj (count_of_segments hrequested))

section

variable {actual path : String} (hpath : path.toList.count '/' = 2)
include hpath

theorem exists_segments_of_count : ∃ a b c, segments '/' path = [a, b, c] :=
  List.length_eq_three.1 (by rw [length_segments, hpath])

/-- A path of three segments means whatever is one segment below it. -/
theorem pathAnswers_iff_of_count :
    pathAnswers actual path = true ↔ ∃ d, segments '/' actual = segments '/' path ++ [d] := by
  obtain ⟨a, b, c, hpath⟩ := exists_segments_of_count hpath
  rw [pathAnswers_iff_segments, hpath]
  constructor
  · rintro ⟨a', b', c', d, hactual, heq | heq | heq⟩
    · exact ⟨d, by rw [hactual, heq]; rfl⟩
    · cases heq
    · cases heq
  · rintro ⟨d, hactual⟩
    exact ⟨a, b, c, d, hactual, .inl rfl⟩

/-- Whatever is asked for below a path of three segments, the path itself asks for. -/
theorem pathAnswers_of_below {below : String}
    (h : pathAnswers actual (path ++ "/" ++ below) = true) : pathAnswers actual path = true := by
  rw [pathAnswers_iff_of_count hpath]
  obtain ⟨a, b, c, hpath⟩ := exists_segments_of_count hpath
  obtain ⟨a', b', c', d, hactual, hbelow⟩ := pathAnswers_iff_segments.1 h
  simp only [segments_slash, hpath, List.cons_append, List.cons.injEq] at hbelow
  -- However many segments are below, the first three are those of the path.
  obtain ⟨rfl, rfl, rfl, -⟩ | ⟨rfl, rfl, rfl, -⟩ | ⟨rfl, rfl, rfl, -⟩ := hbelow <;>
    exact ⟨d, by rw [hactual, hpath]; rfl⟩

theorem pathAnswers_latest :
    pathAnswers actual (path ++ "/" ++ latest) = true ↔ pathAnswers actual path = true := by
  refine ⟨pathAnswers_of_below hpath, fun h => ?_⟩
  obtain ⟨d, hactual⟩ := (pathAnswers_iff_of_count hpath).1 h
  obtain ⟨a, b, c, hpath⟩ := exists_segments_of_count hpath
  refine pathAnswers_iff_segments.2 ⟨a, b, c, d, by rw [hactual, hpath]; rfl, .inr (.inr ?_)⟩
  rw [segments_slash, hpath, segments_latest]
  rfl

end

/-! ## Queries -/

/-- What a query asks for: instances that are not hidden and have the capability, of services with
    the name, if one is given, and deployed where the path means, if one is given. -/
structure Query.Asks (q : Query) (s : Service) (i : Instance) : Prop where
  visible : i.disabled = false
  capability : q.capability ∈ i.capabilities
  name : ∀ n, q.name = some n → s.name = n
  path : ∀ r, q.path = some r → ∃ d : DeployPath, s.deployPath = some d.text ∧ d.MeantBy r

/-- A queried path is matched by the deploy path, and an absent or empty one matches nothing. -/
theorem pathAnswers_getD_iff {s : Service} {r : String} :
    pathAnswers (s.path?.getD "") r = true ↔
      ∃ d : DeployPath, s.deployPath = some d.text ∧ d.MeantBy r := by
  constructor
  · intro h
    cases hpath : s.path? with
    | none =>
      -- An absent path is taken for the empty text, which has too few segments.
      rw [hpath, Option.getD_none, pathAnswers_empty] at h
      cases h
    | some p =>
      rw [hpath, Option.getD_some, pathAnswers_iff] at h
      obtain ⟨d, rfl, hmeant⟩ := h
      exact ⟨d, (Service.path?_eq_some_iff.1 hpath).1, hmeant⟩
  · rintro ⟨d, hdeploy, hmeant⟩
    have hanswers : pathAnswers d.text r = true := pathAnswers_iff.2 ⟨d, rfl, hmeant⟩
    have hne : d.text ≠ "" := by
      intro hempty
      rw [hempty, pathAnswers_empty] at hanswers
      cases hanswers
    rwa [Service.path?_eq_some_iff.2 ⟨hdeploy, hne⟩, Option.getD_some]

theorem admits_iff {q : Query} {s : Service} :
    q.admits s = true ↔ (∀ n, q.name = some n → s.name = n) ∧
      ∀ r, q.path = some r → ∃ d : DeployPath, s.deployPath = some d.text ∧ d.MeantBy r := by
  simp only [Query.admits, Bool.and_eq_true, Option.all_eq_true, pathAnswers_getD_iff, beq_iff_eq]
  exact And.comm

theorem asks_iff {q : Query} {s : Service} {i : Instance} :
    (q.admits s && (i.isVisible && i.offers q.capability)) = true ↔ q.Asks s i := by
  simp only [Bool.and_eq_true, admits_iff, Instance.isVisible, Instance.offers, Bool.not_eq_true',
    List.contains_iff_mem]
  constructor
  · rintro ⟨⟨hname, hpath⟩, hvisible, hcapability⟩
    exact ⟨hvisible, hcapability, hname, hpath⟩
  · intro h
    exact ⟨⟨h.name, h.path⟩, h.visible, h.capability⟩

instance (q : Query) (s : Service) (i : Instance) : Decidable (q.Asks s i) :=
  decidable_of_iff _ asks_iff

/-- A path is asked for besides all else. -/
theorem asks_path_iff {q : Query} {s : Service} {i : Instance} {r : String} :
    { q with path := some r }.Asks s i ↔
      { q with path := none }.Asks s i ∧ pathAnswers (s.path?.getD "") r = true := by
  rw [pathAnswers_getD_iff]
  constructor
  · intro h
    exact ⟨⟨h.visible, h.capability, h.name, nofun⟩, h.path r rfl⟩
  · rintro ⟨h, hpath⟩
    refine ⟨h.visible, h.capability, h.name, ?_⟩
    rintro _ ⟨⟩
    exact hpath

/-! ## Targets -/

namespace Inventory

theorem targets_eq_filter (inv : Inventory) (q : Query) :
    inv.targets q = inv.stored.filter fun t => decide (q.Asks t.1 t.2) := by
  have h := flatMap_restricted q.admits (fun i => i.isVisible && i.offers q.capability) inv
  rw [targets, resolve, h]
  apply List.filter_congr
  intro t _
  rw [Bool.eq_iff_iff, asks_iff, decide_eq_true_iff]

/-- A query that asks for more finds a part of what another finds, in the same order. -/
theorem targets_sublist {q q' : Query} (h : ∀ s i, q.Asks s i → q'.Asks s i) (inv : Inventory) :
    (inv.targets q).Sublist (inv.targets q') := by
  rw [targets_eq_filter, targets_eq_filter]
  refine List.monotone_filter_right _ fun t hasks => ?_
  exact decide_eq_true (h t.1 t.2 (of_decide_eq_true hasks))

theorem nodup_targets {inv : Inventory} (h : inv.ids.Nodup) (q : Query) :
    (inv.targets q).Nodup := by
  rw [← stored_map_id] at h
  rw [targets_eq_filter]
  exact h.of_map.filter _

section

variable (inv : Inventory) (q : Query)

theorem targets_below {p : String} (hp : p.toList.count '/' = 2) (below : String) :
    (inv.targets { q with path := some (p ++ "/" ++ below) }).Sublist
      (inv.targets { q with path := some p }) := by
  refine targets_sublist (fun s i h => ?_) inv
  obtain ⟨hrest, hpath⟩ := asks_path_iff.1 h
  exact asks_path_iff.2 ⟨hrest, pathAnswers_of_below hp hpath⟩

theorem targets_latest {p : String} (hp : p.toList.count '/' = 2) :
    inv.targets { q with path := some (p ++ "/" ++ latest) } =
      inv.targets { q with path := some p } := by
  rw [targets_eq_filter, targets_eq_filter]
  apply List.filter_congr
  intro t _
  rw [Bool.eq_iff_iff, decide_eq_true_iff, decide_eq_true_iff, asks_path_iff, asks_path_iff,
    pathAnswers_latest hp]

theorem count_of_mem_targets {r : String} {t : Service × Instance}
    (h : t ∈ inv.targets { q with path := some r }) :
    (r.toList.count '/' = 2 ∨ r.toList.count '/' = 3) ∧
      ∃ p, t.1.deployPath = some p ∧ p.toList.count '/' = 3 := by
  rw [targets_eq_filter, List.mem_filter, decide_eq_true_iff] at h
  obtain ⟨d, hdeploy, hmeant⟩ := h.2.path r rfl
  obtain ⟨hactual, hrequested⟩ := count_of_pathAnswers (pathAnswers_iff.2 ⟨d, rfl, hmeant⟩)
  exact ⟨hrequested, d.text, hdeploy, hactual⟩

/-- A query finds what it asks for among all that is stored, in order and each once. A path of
    three segments finds the same as with `latest` below it, and all that it finds with any build
    below it. Only paths of three or four segments find anything, and only services with deploy
    paths of four are found by path. -/
theorem targets_exact :
    inv.targets q = inv.stored.filter (fun t => decide (q.Asks t.1 t.2)) ∧
    (inv.ids.Nodup → (inv.targets q).Nodup) ∧
    (∀ p, p.toList.count '/' = 2 →
      inv.targets { q with path := some (p ++ "/" ++ latest) } =
        inv.targets { q with path := some p } ∧
      ∀ build, (inv.targets { q with path := some (p ++ "/" ++ build) }).Sublist
        (inv.targets { q with path := some p })) ∧
    (∀ r, r.toList.count '/' ≠ 2 → r.toList.count '/' ≠ 3 →
      inv.targets { q with path := some r } = []) ∧
    ∀ r, ∀ t ∈ inv.targets { q with path := some r },
      ∃ p, t.1.deployPath = some p ∧ p.toList.count '/' = 3 := by
  refine ⟨targets_eq_filter inv q, fun hn => nodup_targets hn q,
    fun p hp => ⟨targets_latest inv q hp, targets_below inv q hp⟩, fun r htwo hthree => ?_,
    fun r t ht => (count_of_mem_targets inv q ht).2⟩
  refine List.eq_nil_iff_forall_not_mem.2 fun t ht => ?_
  rcases (count_of_mem_targets inv q ht).1 with hcount | hcount
  · exact htwo hcount
  · exact hthree hcount

end

/-- A build that is called `latest`, a hidden instance, and a service without a deploy path. -/
theorem targets_exact_builds :
    let old : Instance := .enrolled 1 ⟨"node-1", 9000⟩ [.tcp] 0
    let new : Instance := .enrolled 2 ⟨"node-2", 9000⟩ [.status, .tcp] 0
    let leaving : Instance := { Instance.enrolled 3 ⟨"node-3", 9000⟩ [.tcp] 0 with disabled := true }
    let loose : Instance := .enrolled 4 ⟨"node-4", 9000⟩ [.tcp] 0
    let inv : Inventory :=
      ⟨[⟨⟨"kv", some "ns/g/kv/7"⟩, [old]⟩, ⟨⟨"kv", some "ns/g/kv/latest"⟩, [new, leaving]⟩,
        ⟨⟨"web", some ""⟩, [loose]⟩], 4⟩
    let byPath (p : String) : Query := ⟨.tcp, some p, none⟩
    let found := [(⟨"kv", some "ns/g/kv/7"⟩, old), (⟨"kv", some "ns/g/kv/latest"⟩, new)]
    inv.ids.Nodup ∧ "ns/g/kv".toList.count '/' = 2 ∧ "ns/g".toList.count '/' = 1 ∧
    (inv.targets (byPath "ns/g/kv")).Nodup ∧ inv.targets (byPath "ns/g/kv") = found ∧
    inv.targets (byPath "ns/g/kv/latest") = found ∧
    (inv.targets (byPath "ns/g/kv/7")).Sublist found ∧ inv.targets (byPath "ns/g") = [] ∧
    (⟨"kv", some "ns/g/kv/7"⟩, old) ∈ inv.targets (byPath "ns/g/kv") ∧
    "ns/g/kv/7".toList.count '/' = 3 := by
  intro old new leaving loose inv byPath found
  have hn : inv.ids.Nodup := by decide
  have hthree : "ns/g/kv".toList.count '/' = 2 := by decide
  have hfound : inv.targets (byPath "ns/g/kv") = found := by decide
  have hold : (⟨"kv", some "ns/g/kv/7"⟩, old) ∈ inv.targets (byPath "ns/g/kv") := by
    rw [hfound]
    exact List.mem_cons_self
  obtain ⟨-, hnodup, hbelow, hnone, hpath⟩ := targets_exact inv (byPath "ns/g/kv")
  obtain ⟨hlatest, hbuild⟩ := hbelow "ns/g/kv" hthree
  obtain ⟨p, hp, hcount⟩ := hpath "ns/g/kv" _ hold
  refine ⟨hn, hthree, by decide, hnodup hn, hfound, hlatest.trans hfound, ?_,
    hnone "ns/g" (by decide) (by decide), hold, ?_⟩
  · rw [← hfound]
    exact hbuild "7"
  · rw [Option.some.inj hp]
    exact hcount

end Inventory

end ServiceRegistry
