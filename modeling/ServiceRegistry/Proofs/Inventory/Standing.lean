/-
  ServiceRegistry.Proofs.Inventory.Standing

  Two registrations in either order. Numbers are given out in the order of the registrations
  and entries stand in that order, so the two inventories differ in both. What they have in
  common is how their instances stand: a standing is an instance without its number, at its
  spot, which is the name and the deploy path of its entry and its endpoint.

  For standings a registration is an insertion by key (`enrolAt`): at its spot it renews what
  stands there or adds something new. Insertions at different spots commute. It remains to see
  that a registration goes to the same spot before and after the other, and this is not always
  so: a service without a deploy path makes its name one without deploy paths if it comes first,
  but joins the entry of another service of its name if it comes second. `Service.Indifferent`
  says when this cannot happen.
-/
import ServiceRegistry.Proofs.Inventory.Batch

namespace ServiceRegistry

/-! ## The order of two services -/

namespace Service

/-- The deploy paths under which two services are placed do not depend on which comes first:
    their names differ, or both have a deploy path, or neither has, or the name is taken. -/
def Indifferent (services : List Service) (a b : Service) : Prop :=
  a.name ≠ b.name ∨ (a.path? ≠ none ∧ b.path? ≠ none) ∨ (a.path? = none ∧ b.path? = none) ∨
    ∃ s ∈ services, s.name = a.name

section

variable {services : List Service} {a b : Service}

theorem Indifferent.symm (h : Indifferent services a b) : Indifferent services b a := by
  by_cases hname : a.name = b.name
  · rcases h with hne | ⟨ha, hb⟩ | ⟨ha, hb⟩ | ⟨s, hs, hsname⟩
    · exact absurd hname hne
    · exact .inr (.inl ⟨hb, ha⟩)
    · exact .inr (.inr (.inl ⟨hb, ha⟩))
    · exact .inr (.inr (.inr ⟨s, hs, hsname.trans hname⟩))
  · exact .inl (Ne.symm hname)

/-- A service that comes first of its name lends its deploy path to none and takes none away. -/
theorem Indifferent.scope_eq (h : Indifferent services a b) (hname : a.name = b.name)
    (hfree : ∀ s ∈ services, s.name ≠ b.name) : b.scope (some a) = b.scope none := by
  rcases h with hne | ⟨ha, hb⟩ | ⟨ha, hb⟩ | ⟨s, hs, hsname⟩
  · exact absurd hname hne
  · obtain ⟨p, hp⟩ := Option.ne_none_iff_exists'.1 ha
    obtain ⟨q, hq⟩ := Option.ne_none_iff_exists'.1 hb
    simp only [scope, hp, hq, Option.map_some, Option.getD_some]
  · simp only [scope, ha, hb, Option.map_none]
  · exact absurd (hsname.trans hname) (hfree s hs)

theorem Apart.path?_place_append (h : Apart (services ++ [a]))
    (hindifferent : Indifferent services a b) :
    (b.place (services ++ [a])).path? = (b.place services).path? := by
  have hservices : Apart services := (List.pairwise_append.1 h).1
  rw [h.path?_place, hservices.path?_place, List.find?_append]
  cases hfirst : services.find? (·.name == b.name) with
  | some first => rw [Option.some_or]
  | none =>
    have hfree : ∀ s ∈ services, s.name ≠ b.name := by
      intro s hs
      simpa using List.find?_eq_none.1 hfirst s hs
    rw [Option.none_or, List.find?_singleton]
    by_cases hname : a.name = b.name
    · rw [if_pos (beq_iff_eq.2 hname)]
      exact hindifferent.scope_eq hname hfree
    · rw [if_neg (by simpa using hname)]

/-- Services of one name and one deploy path accept each other. -/
theorem accepts_of_path?_eq (hname : a.name = b.name) (hpath : a.path? = b.path?) :
    a.accepts b = true := by
  cases ha : a.path? with
  | none => exact accepts_of_path?_eq_none hname ha
  | some p => exact (accepts_iff_of_paths ha (hpath ▸ ha)).2 ⟨hname, rfl⟩

end

end Service

namespace Inventory

/-! ## Standings -/

/-- Where an instance is: its entry, by name and deploy path, and its endpoint. -/
structure Spot where
  name : String
  path? : Option String
  endpoint : Endpoint
  deriving DecidableEq, Repr

/-- All of an instance but its number. -/
structure Standing where
  spot : Spot
  capabilities : List Capability
  disabled : Bool
  firstRegistered : UInt64
  lastSuccess : UInt64
  lastRefresh : UInt64
  failures : UInt32
  deriving DecidableEq, Repr

namespace Standing

/-- An instance of a service as it stands. -/
def of (t : Service × Instance) : Standing where
  spot := ⟨t.1.name, t.1.path?, t.2.endpoint⟩
  capabilities := t.2.capabilities
  disabled := t.2.disabled
  firstRegistered := t.2.firstRegistered
  lastSuccess := t.2.lastSuccess
  lastRefresh := t.2.lastRefresh
  failures := t.2.failures

/-- What a filing makes stand at a spot that is free. -/
def new (spot : Spot) (x : Filing) : Standing where
  spot := spot
  capabilities := x.capabilities
  disabled := false
  firstRegistered := x.now
  lastSuccess := x.now
  lastRefresh := x.now
  failures := 0

/-- What a filing at a spot makes of a standing. -/
def renewedAt (spot : Spot) (x : Filing) (s : Standing) : Standing :=
  if s.spot = spot then { s with lastRefresh := x.now } else s

end Standing

/-- How the instances of an inventory stand, hidden ones included. -/
def standings (inv : Inventory) : List Standing := inv.stored.map .of

/-- The spots that are taken. -/
def spots (ss : List Standing) : List Spot := ss.map (·.spot)

/-- A filing at a spot renews what stands there, or makes something new stand there. -/
def enrolAt (spot : Spot) (x : Filing) (ss : List Standing) : List Standing :=
  if spot ∈ spots ss then ss.map (Standing.renewedAt spot x) else ss ++ [Standing.new spot x]

/-- The spot to which the registration of an endpoint of a service goes. -/
def spotOf (inv : Inventory) (service : Service) (endpoint : Endpoint) : Spot :=
  ⟨service.name, (service.place inv.services).path?, endpoint⟩

/-! ## Insertions by spot -/

section

variable {p q : Spot} {ss ts : List Standing}

theorem renewedAt_of_ne {s : Standing} (h : s.spot ≠ p) (x : Filing) : s.renewedAt p x = s :=
  if_neg h

theorem renewedAt_spot (p : Spot) (x : Filing) (s : Standing) :
    (s.renewedAt p x).spot = s.spot := by
  unfold Standing.renewedAt
  split <;> rfl

theorem renewedAt_comm (h : p ≠ q) (x y : Filing) (s : Standing) :
    (s.renewedAt p x).renewedAt q y = (s.renewedAt q y).renewedAt p x := by
  by_cases hp : s.spot = p
  · have hq : s.spot ≠ q := fun hq => h (hp.symm.trans hq)
    have hq' : (s.renewedAt p x).spot ≠ q := by rwa [renewedAt_spot]
    rw [renewedAt_of_ne hq, renewedAt_of_ne hq']
  · have hp' : (s.renewedAt q y).spot ≠ p := by rwa [renewedAt_spot]
    rw [renewedAt_of_ne hp, renewedAt_of_ne hp']

theorem map_renewedAt_of_not_mem (h : p ∉ spots ss) (x : Filing) :
    ss.map (Standing.renewedAt p x) = ss := by
  have hsame : ∀ s ∈ ss, s.renewedAt p x = s := by
    intro s hs
    exact renewedAt_of_ne (fun heq => h (List.mem_map.2 ⟨s, hs, heq⟩)) x
  rw [List.map_congr_left hsame, List.map_id']

theorem mem_spots_of_perm (h : ss.Perm ts) : p ∈ spots ss ↔ p ∈ spots ts := (h.map _).mem_iff

theorem spots_append (ss ts : List Standing) : spots (ss ++ ts) = spots ss ++ spots ts :=
  List.map_append

theorem spots_map_renewedAt (p : Spot) (x : Filing) (ss : List Standing) :
    spots (ss.map (Standing.renewedAt p x)) = spots ss := by
  unfold spots
  rw [List.map_map]
  exact List.map_congr_left fun s _ => renewedAt_spot p x s

theorem enrolAt_of_mem (h : p ∈ spots ss) (x : Filing) :
    enrolAt p x ss = ss.map (Standing.renewedAt p x) := if_pos h

theorem enrolAt_of_not_mem (h : p ∉ spots ss) (x : Filing) :
    enrolAt p x ss = ss ++ [Standing.new p x] := if_neg h

/-- A filing takes its own spot and no other. -/
theorem mem_spots_enrolAt (x : Filing) : q ∈ spots (enrolAt p x ss) ↔ q = p ∨ q ∈ spots ss := by
  by_cases hp : p ∈ spots ss
  · rw [enrolAt_of_mem hp, spots_map_renewedAt]
    refine ⟨.inr, fun hq => hq.elim (fun heq => ?_) id⟩
    rwa [heq]
  · rw [enrolAt_of_not_mem hp, spots_append, List.mem_append, or_comm]
    exact or_congr_left List.mem_singleton

theorem enrolAt_perm (h : ss.Perm ts) (p : Spot) (x : Filing) :
    (enrolAt p x ss).Perm (enrolAt p x ts) := by
  have hmem : p ∈ spots ss ↔ p ∈ spots ts := mem_spots_of_perm h
  by_cases hp : p ∈ spots ss
  · rw [enrolAt_of_mem hp, enrolAt_of_mem (hmem.1 hp)]
    exact h.map _
  · rw [enrolAt_of_not_mem hp, enrolAt_of_not_mem (mt hmem.2 hp)]
    exact h.append_right _

/-- A spot that is taken and one that is free. -/
theorem enrolAt_comm_of_mem (h : p ≠ q) (hp : p ∈ spots ss) (hq : q ∉ spots ss) (x y : Filing) :
    enrolAt q y (enrolAt p x ss) = enrolAt p x (enrolAt q y ss) := by
  have hp' : p ∈ spots (enrolAt q y ss) := (mem_spots_enrolAt y).2 (.inr hp)
  have hq' : q ∉ spots (enrolAt p x ss) := fun hmem =>
    ((mem_spots_enrolAt x).1 hmem).elim (Ne.symm h) hq
  have hnew : (Standing.new q y).renewedAt p x = Standing.new q y := renewedAt_of_ne (Ne.symm h) x
  rw [enrolAt_of_not_mem hq', enrolAt_of_mem hp, enrolAt_of_mem hp', enrolAt_of_not_mem hq,
    List.map_append, List.map_singleton, hnew]

theorem enrolAt_comm (h : p ≠ q) (x y : Filing) (ss : List Standing) :
    (enrolAt q y (enrolAt p x ss)).Perm (enrolAt p x (enrolAt q y ss)) := by
  have hp' : p ∈ spots (enrolAt q y ss) ↔ p ∈ spots ss := by
    rw [mem_spots_enrolAt, or_iff_right h]
  have hq' : q ∈ spots (enrolAt p x ss) ↔ q ∈ spots ss := by
    rw [mem_spots_enrolAt, or_iff_right (Ne.symm h)]
  by_cases hp : p ∈ spots ss
  · by_cases hq : q ∈ spots ss
    · rw [enrolAt_of_mem (hq'.2 hq), enrolAt_of_mem (hp'.2 hp), enrolAt_of_mem hp,
        enrolAt_of_mem hq, List.map_map, List.map_map]
      exact .of_eq (List.map_congr_left fun s _ => renewedAt_comm h x y s)
    · exact .of_eq (enrolAt_comm_of_mem h hp hq x y)
  · by_cases hq : q ∈ spots ss
    · exact .of_eq (enrolAt_comm_of_mem (Ne.symm h) hq hp y x).symm
    · rw [enrolAt_of_not_mem (mt hq'.1 hq), enrolAt_of_not_mem (mt hp'.1 hp),
        enrolAt_of_not_mem hp, enrolAt_of_not_mem hq, List.append_assoc, List.append_assoc]
      exact (List.Perm.swap _ _ []).append_left ss

end

/-! ## A registration is an insertion -/

/-- What the registration of an endpoint of a service comes to. -/
structure Entered (policy : Policy) (inv : Inventory) (service : Service) (x : Filing)
    (r : Enrolment) : Prop where
  answer_eq : (Moment.mk (x.event service) inv).answer policy = .enrolled (.ok r)
  created_iff : r.created = true ↔ inv.spotOf service x.endpoint ∉ spots inv.standings
  lastId_eq : ((Moment.mk (x.event service) inv).after policy).lastId
    = if r.created then inv.lastId + 1 else inv.lastId
  standings_perm : ((Moment.mk (x.event service) inv).after policy).standings.Perm
    (enrolAt (inv.spotOf service x.endpoint) x inv.standings)

/-- How the instances of an entry stand. -/
def entryStandings (e : Entry) : List Standing := e.instances.map fun i => .of (e.service, i)

section

variable {inv : Inventory} {service : Service} {x : Filing} {e : Entry}

theorem standings_mk (es : List Entry) (last : InstanceId) :
    (Inventory.mk es last).standings = es.flatMap entryStandings := by
  simp only [standings, stored, List.map_flatMap, List.map_map, Function.comp_def]
  rfl

theorem standings_append_cons (before after : List Entry) (e : Entry) (last : InstanceId) :
    (Inventory.mk (before ++ e :: after) last).standings
      = before.flatMap entryStandings ++ (entryStandings e ++ after.flatMap entryStandings) := by
  rw [standings_mk, List.flatMap_append, List.flatMap_cons]

/-- An entry without instances makes no difference. -/
theorem standings_entriesFor (service : Service) (inv : Inventory) :
    (Inventory.mk (entriesFor service inv.entries) inv.lastId).standings = inv.standings := by
  unfold entriesFor
  split
  · rfl
  · rw [standings_append_cons, ← standings_mk _ inv.lastId]
    exact List.append_nil _

/-- In an entry that is apart from another no instance stands at a spot of the other. -/
theorem not_mem_spots_of_apart {d e : Entry} (h : d.service.accepts e.service = false)
    (endpoint : Endpoint) :
    Spot.mk e.service.name e.service.path? endpoint ∉ spots (entryStandings d) := by
  intro hmem
  obtain ⟨s, hs, hspot⟩ := List.mem_map.1 hmem
  obtain ⟨i, -, rfl⟩ := List.mem_map.1 hs
  obtain ⟨hname, hpath, -⟩ := Spot.mk.inj hspot
  rw [Service.accepts_of_path?_eq hname hpath] at h
  cases h

theorem not_mem_spots_flatMap {ds : List Entry} {e : Entry}
    (h : ∀ d ∈ ds, d.service.accepts e.service = false) (endpoint : Endpoint) :
    Spot.mk e.service.name e.service.path? endpoint ∉ spots (ds.flatMap entryStandings) := by
  intro hmem
  obtain ⟨s, hs, hspot⟩ := List.mem_map.1 hmem
  obtain ⟨d, hd, hs⟩ := List.mem_flatMap.1 hs
  exact not_mem_spots_of_apart (h d hd) endpoint (List.mem_map.2 ⟨s, hs, hspot⟩)

/-- Entries are apart, so a spot of one of them is free in all others. -/
theorem not_mem_spots_others {before after : List Entry} {e : Entry}
    (h : Service.Apart ((before ++ e :: after).map (·.service))) (endpoint : Endpoint) :
    let spot : Spot := ⟨e.service.name, e.service.path?, endpoint⟩
    spot ∉ spots (before.flatMap entryStandings) ∧ spot ∉ spots (after.flatMap entryStandings) := by
  obtain ⟨-, hright, hleft⟩ := List.pairwise_append.1 (List.map_append ▸ h)
  refine ⟨not_mem_spots_flatMap (fun d hd => ?_) endpoint,
    not_mem_spots_flatMap (fun d hd => ?_) endpoint⟩
  · exact hleft d.service (List.mem_map_of_mem hd) e.service List.mem_cons_self
  · rw [Service.accepts_comm]
    exact (List.pairwise_cons.1 hright).1 d.service (List.mem_map_of_mem hd)

theorem mem_spots_entryStandings (e : Entry) (endpoint : Endpoint) :
    Spot.mk e.service.name e.service.path? endpoint ∈ spots (entryStandings e) ↔
      endpoint ∈ e.instances.map (·.endpoint) := by
  simp only [spots, entryStandings, Standing.of, List.mem_map, List.map_map, Function.comp_apply,
    Spot.mk.injEq, true_and]

theorem entryStandings_renewed (e : Entry) (x : Filing) :
    entryStandings { e with instances := e.instances.map (renewed [x]) }
      = (entryStandings e).map
          (Standing.renewedAt ⟨e.service.name, e.service.path?, x.endpoint⟩ x) := by
  unfold entryStandings
  rw [List.map_map, List.map_map]
  refine List.map_congr_left fun i _ => ?_
  by_cases h : i.endpoint = x.endpoint
  · simp only [Function.comp_apply, renewed_cons_of_eq h, renewed_nil, Standing.renewedAt,
      Standing.of, h, if_true, Instance.refreshed]
  · simp only [Function.comp_apply, renewed_cons_of_ne h, renewed_nil, Standing.renewedAt,
      Standing.of, Spot.mk.injEq, h, and_false, if_false]

theorem entryStandings_enrolled (e : Entry) (id : InstanceId) (x : Filing) :
    entryStandings { e with
        instances := e.instances ++ [.enrolled id x.endpoint x.capabilities x.now] }
      = entryStandings e ++ [.new ⟨e.service.name, e.service.path?, x.endpoint⟩ x] :=
  List.map_append

theorem place_eq_of_first {before after : List Entry}
    (hbefore : ∀ d ∈ before, d.service.accepts service = false)
    (haccepts : e.service.accepts service = true)
    (hcases : inv.entries = before ++ e :: after ∨
      inv.entries = before ∧ e = ⟨service, []⟩ ∧ after = []) :
    service.place inv.services = e.service := by
  have hnone : (before.map (·.service)).find? (·.accepts service) = none := by
    refine List.find?_eq_none.2 fun s hs => ?_
    obtain ⟨d, hd, rfl⟩ := List.mem_map.1 hs
    rw [hbefore d hd]
    exact Bool.false_ne_true
  unfold Service.place services
  rcases hcases with hentries | ⟨hentries, rfl, -⟩
  · rw [hentries, List.map_append, List.find?_append, hnone, Option.none_or, List.map_cons,
      List.find?_cons, haccepts, Option.getD_some]
  · rw [hentries, hnone, Option.getD_none]

/-- Every registration under a name goes through, as an insertion at its spot. -/
theorem Tidy.entered (h : inv.Tidy) (policy : Policy) (hname : service.name ≠ "") (x : Filing) :
    ∃ r, Entered policy inv service x r := by
  obtain ⟨before, e, after, hentries, hbefore, haccepts, hcases⟩ :=
    exists_entriesFor_eq service inv.entries
  have htidy := h.entriesFor service inv.lastId
  rw [hentries] at htidy
  let spot : Spot := ⟨e.service.name, e.service.path?, x.endpoint⟩
  have hspot : inv.spotOf service x.endpoint = spot := by
    rw [spotOf, place_eq_of_first hbefore haccepts hcases, ← Service.name_eq_of_accepts haccepts]
  have hstandings : inv.standings
      = before.flatMap entryStandings ++ (entryStandings e ++ after.flatMap entryStandings) := by
    rw [← standings_entriesFor service inv, hentries, standings_append_cons]
  obtain ⟨hfree, hfree'⟩ := not_mem_spots_others htidy.services_apart x.endpoint
  have hmem : spot ∈ spots inv.standings ↔ x.endpoint ∈ e.instances.map (·.endpoint) := by
    rw [hstandings, spots_append, spots_append, List.mem_append, List.mem_append,
      or_iff_right hfree, or_iff_left hfree']
    exact mem_spots_entryStandings e x.endpoint
  by_cases hknown : x.endpoint ∈ e.instances.map (·.endpoint)
  · have hn : (e.instances.map (·.endpoint)).Nodup :=
      htidy.endpoints_nodup e (List.mem_append_right _ List.mem_cons_self)
    obtain ⟨i, henrol⟩ := entry_enrol_known hn hknown (inv.lastId + 1)
    have hperform := perform_event policy hname hentries hbefore haccepts henrol
    refine ⟨⟨i, false⟩, congrArg Prod.fst hperform, ?_, ?_, ?_⟩
    · rw [hspot, hmem]
      simp [hknown]
    · rw [Moment.after, hperform]
    · rw [Moment.after, hperform, hspot, enrolAt_of_mem (hmem.2 hknown), hstandings,
        List.map_append, List.map_append, map_renewedAt_of_not_mem hfree,
        map_renewedAt_of_not_mem hfree', standings_append_cons, entryStandings_renewed]
  · have hperform := perform_event policy hname hentries hbefore haccepts
      (entry_enrol_new hknown (inv.lastId + 1))
    refine ⟨_, congrArg Prod.fst hperform, ?_, ?_, ?_⟩
    · rw [hspot, hmem]
      simp [hknown]
    · rw [Moment.after, hperform]
    · rw [Moment.after, hperform, hspot, enrolAt_of_not_mem (mt hmem.1 hknown), hstandings,
        standings_append_cons, entryStandings_enrolled]
      simp only [List.append_assoc]
      refine List.Perm.append_left _ (List.Perm.append_left _ ?_)
      exact List.perm_append_comm

end

/-! ## Two registrations -/

section

variable {policy : Policy} {inv : Inventory} {a b : Service} {x y : Filing}

/-- The first of two registrations leaves the spot of the second as it is. -/
theorem spotOf_after (h : inv.Tidy) (hindifferent : Service.Indifferent inv.services a b)
    (hname : a.name ≠ "") (endpoint : Endpoint) :
    ((Moment.mk (x.event a) inv).after policy).spotOf b endpoint = inv.spotOf b endpoint := by
  let m : Moment := ⟨x.event a, inv⟩
  have htidy : (m.after policy).Tidy := h.after_event (m := m)
  have hapart := htidy.services_apart
  unfold spotOf
  rcases Moment.enrol_cases policy (m := m) rfl with ⟨hempty, -, -⟩ | ⟨r, fs, -, hfiled, -, hafter⟩
  · exact absurd hempty hname
  · have hservices : (m.after policy).services = fs.map (·.service) := by
      rw [hafter]
      rfl
    rcases hfiled.services_eq with heq | ⟨-, heq⟩
    · rw [hservices, heq]
      rfl
    · rw [hservices, heq] at hapart ⊢
      rw [hapart.path?_place_append hindifferent]
      rfl

/-- Two registrations, the second as if the first had not been. -/
structure EnteredBoth (policy : Policy) (inv : Inventory) (a b : Service) (x y : Filing)
    (r s : Enrolment) : Prop where
  first : Entered policy inv a x r
  second : Entered policy ((Moment.mk (x.event a) inv).after policy) b y s
  created_iff : s.created = true ↔ inv.spotOf b y.endpoint ∉ spots inv.standings
  standings_perm : (after policy inv [x.event a, y.event b]).standings.Perm
    (enrolAt (inv.spotOf b y.endpoint) y (enrolAt (inv.spotOf a x.endpoint) x inv.standings))

theorem spotOf_ne (h : a.name ≠ b.name ∨ x.endpoint ≠ y.endpoint) :
    inv.spotOf a x.endpoint ≠ inv.spotOf b y.endpoint := by
  intro heq
  obtain ⟨hname, -, hendpoint⟩ := Spot.mk.inj heq
  exact h.elim (absurd hname) (absurd hendpoint)

theorem Tidy.enteredBoth (h : inv.Tidy) (policy : Policy) (ha : a.name ≠ "") (hb : b.name ≠ "")
    (hdiffer : a.name ≠ b.name ∨ x.endpoint ≠ y.endpoint)
    (hindifferent : Service.Indifferent inv.services a b) :
    ∃ r s, EnteredBoth policy inv a b x y r s := by
  obtain ⟨r, hr⟩ := h.entered policy ha x
  have htidy : ((Moment.mk (x.event a) inv).after policy).Tidy :=
    h.after_event (m := ⟨x.event a, inv⟩)
  obtain ⟨s, hs⟩ := htidy.entered policy hb y
  have hspot : ((Moment.mk (x.event a) inv).after policy).spotOf b y.endpoint
      = inv.spotOf b y.endpoint := spotOf_after h hindifferent ha y.endpoint
  refine ⟨r, s, hr, hs, ?_, ?_⟩
  · rw [hs.created_iff, hspot, mem_spots_of_perm hr.standings_perm]
    exact not_congr ((mem_spots_enrolAt x).trans (or_iff_right (Ne.symm (spotOf_ne hdiffer))))
  · have hperm := hs.standings_perm
    rw [hspot] at hperm
    exact hperm.trans (enrolAt_perm hr.standings_perm _ y)

theorem EnteredBoth.lastId_eq {r s : Enrolment} (h : EnteredBoth policy inv a b x y r s) :
    (after policy inv [x.event a, y.event b]).lastId
      = inv.lastId + (if r.created then 1 else 0) + if s.created then 1 else 0 := by
  refine h.second.lastId_eq.trans ?_
  rw [h.first.lastId_eq]
  cases r.created <;> cases s.created <;> simp

end

end Inventory

end ServiceRegistry
