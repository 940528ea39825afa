/-
  ServiceRegistry.Proofs.Server.Commuting

  What queries tell of the order of two registrations. A list, the targets of a query and a
  lookup look at how the instances stand and at nothing else, apart from the order in which
  they give the addresses and from the first entry, which a lookup names. So where two
  registrations make the instances stand alike in either order, queries give the same
  addresses.
-/
import ServiceRegistry.Proofs.Inventory.Standing
import ServiceRegistry.Proofs.Server.Views

namespace ServiceRegistry

/-! ## Services as they are read -/

namespace Service

theorem path?_of_read (s : Service) : (Service.mk s.name s.path?).path? = s.path? := by
  simp only [path?, Option.filter_filter, Bool.and_self]

theorem accepts_of_read (s t : Service) :
    (Service.mk s.name s.path?).accepts t = s.accepts t := by
  simp only [accepts, path?_of_read]

end Service

theorem Query.admits_of_read (q : Query) (s : Service) :
    q.admits ⟨s.name, s.path?⟩ = q.admits s := by
  simp only [admits, Service.path?_of_read]

namespace Message

/-- A line of an answer as it is read: an empty deploy path says no more than an absent one. -/
def readLine (l : Service × Address) : (String × Option String) × Address :=
  ((l.1.name, l.1.path?), l.2)

theorem lines_ofLines (ls : List (Service × Address)) : (ListResponse.ofLines ls).lines = ls := by
  simp only [ListResponse.lines, ListResponse.ofLines, List.flatMap_map, List.map_singleton,
    List.flatMap_singleton']

end Message

/-! ## Standings in answers -/

namespace Inventory

/-- The service of a standing, as it is read. -/
def Standing.service (s : Standing) : Service := ⟨s.spot.name, s.spot.path?⟩

/-- The address of a standing. -/
def Standing.address (s : Standing) : Message.Address :=
  ⟨s.spot.endpoint.host, s.spot.endpoint.port, s.capabilities⟩

/-- What is shown, restricted by how it stands. -/
theorem shown_filter_map {β : Type} {p : Service × Instance → Bool} {P : Standing → Bool}
    {g : Service × Instance → β} {G : Standing → β} (hp : ∀ t, p t = P (.of t))
    (hg : ∀ t, g t = G (.of t)) (inv : Inventory) :
    (inv.shown.filter p).map g
      = (inv.standings.filter fun s => !s.disabled && P s).map G := by
  have hof : (fun t : Service × Instance => !t.2.disabled && p t)
      = (fun s : Standing => !s.disabled && P s) ∘ .of := by
    funext t
    rw [Function.comp_apply, hp]
    rfl
  have hmap : g = G ∘ .of := funext hg
  rw [shown, List.filter_filter, standings, List.filter_map, List.map_map, ← hmap, ← hof]
  simp only [Bool.and_comm]

/-- What is shown of inventories whose instances stand alike. -/
theorem shown_perm {β : Type} {p : Service × Instance → Bool} {P : Standing → Bool}
    {g : Service × Instance → β} {G : Standing → β} (hp : ∀ t, p t = P (.of t))
    (hg : ∀ t, g t = G (.of t)) {inv inv' : Inventory}
    (h : inv.standings.Perm inv'.standings) :
    ((inv.shown.filter p).map g).Perm ((inv'.shown.filter p).map g) := by
  rw [shown_filter_map hp hg, shown_filter_map hp hg]
  exact (h.filter _).map _

end Inventory

namespace Server

open Message World Inventory

/-! ## Alike answers -/

/-- Queries answer the same addresses up to their order, and lists and targets give each with
    the same name and deploy path. -/
structure AnswersAlike (w v : World) : Prop where
  list : ∀ r, ∃ l m, (list r).run w = (.ok l, w) ∧ (Server.list r).run v = (.ok m, v) ∧
    (l.lines.map readLine).Perm (m.lines.map readLine)
  target : ∀ r, ∃ l m, (target r).run w = (.ok l, w) ∧ (Server.target r).run v = (.ok m, v) ∧
    (l.lines.map readLine).Perm (m.lines.map readLine)
  lookup : ∀ r, (∃ e, (lookup r).run w = (.error e, w) ∧ (Server.lookup r).run v = (.error e, v)) ∨
    ∃ l m, (Server.lookup r).run w = (.ok l, w) ∧ (Server.lookup r).run v = (.ok m, v) ∧
      l.addresses.Perm m.addresses

section

variable {w v : World} (h : w.inventory.standings.Perm v.inventory.standings)
include h

theorem lines_list_perm (name : String) :
    let filter := ListRequest.filter ⟨name⟩
    ((ListResponse.ofEntries (w.inventory.listing filter)).lines.map readLine).Perm
      ((ListResponse.ofEntries (v.inventory.listing filter)).lines.map readLine) := by
  intro filter
  rw [lines_list name, lines_list name, List.map_map, List.map_map]
  exact shown_perm (P := fun s => name = "" || s.service.name = name)
    (G := fun s => ((s.service.name, s.spot.path?), s.address)) (fun _ => rfl) (fun _ => rfl) h

theorem lines_target_perm (q : Query) :
    ((ListResponse.ofTargets (w.inventory.targets q)).lines.map readLine).Perm
      ((ListResponse.ofTargets (v.inventory.targets q)).lines.map readLine) := by
  rw [ofTargets_eq, ofTargets_eq, lines_ofLines, lines_ofLines, targets_shown, targets_shown,
    List.map_map, List.map_map]
  refine shown_perm (P := fun s => q.admits s.service && s.capabilities.contains q.capability)
    (G := fun s => ((s.service.name, s.spot.path?), s.address)) (fun t => ?_) (fun _ => rfl) h
  exact congrArg (· && t.2.offers q.capability) (q.admits_of_read t.1).symm

theorem addresses_lookup_perm (service : Service) :
    ((w.inventory.lookup service).flatMap fun e => (Listing.ofEntry e).addresses).Perm
      ((v.inventory.lookup service).flatMap fun e => (Listing.ofEntry e).addresses) := by
  rw [addresses_ofEntries, addresses_ofEntries, lookup_shown, lookup_shown]
  refine shown_perm (P := fun s => s.service.accepts service) (G := Standing.address)
    (fun t => ?_) (fun _ => rfl) h
  exact (Service.accepts_of_read t.1 service).symm

theorem answersAlike_of_perm : AnswersAlike w v where
  list r := ⟨_, _, run_list r.name, run_list r.name, lines_list_perm h r.name⟩
  target r := ⟨_, _, rfl, rfl, lines_target_perm h _⟩
  lookup r := by
    have haddresses := addresses_lookup_perm h r.service
    rw [run_lookup, run_lookup]
    by_cases hnil : ((w.inventory.lookup r.service).flatMap
        fun e => (Listing.ofEntry e).addresses) = []
    · have hnil' := haddresses
      rw [hnil, List.nil_perm] at hnil'
      rw [lookupAnswer_of_nil hnil, lookupAnswer_of_nil hnil']
      exact .inl ⟨_, rfl, rfl⟩
    · have hne : ((v.inventory.lookup r.service).flatMap
          fun e => (Listing.ofEntry e).addresses) ≠ [] := by
        intro hnil'
        rw [hnil', List.perm_nil] at haddresses
        exact hnil haddresses
      obtain ⟨l, hl⟩ := exists_lookupAnswer r.service.name hnil
      obtain ⟨m, hm⟩ := exists_lookupAnswer r.service.name hne
      rw [hl, hm]
      refine .inr ⟨l, m, rfl, rfl, ?_⟩
      rwa [addresses_of_lookupAnswer hl, addresses_of_lookupAnswer hm]

end

/-! ## Two registrations in either order -/

/-- Whatever has happened before. Two registrations of different services or endpoints come to
    the same in either order, but for the numbers of new instances and the order of entries
    and instances, if the order has no say in the deploy paths. Each has its own clock reading,
    which may be the same. -/
theorem registrations_commute (policy : Policy) (es : List Event) (a b : Service) (x y : Filing)
    (w : World) (ha : a.name ≠ "") (hb : b.name ≠ "")
    (hdiffer : a.name ≠ b.name ∨ x.endpoint ≠ y.endpoint)
    (hindifferent : Service.Indifferent (after policy empty es).services a b) :
    let inv := after policy empty es
    let ab := after policy inv [x.event a, y.event b]
    let ba := after policy inv [y.event b, x.event a]
    (∃ r r', (Moment.mk (x.event a) inv).answer policy = .enrolled (.ok r) ∧
      (Moment.mk (x.event a) (after policy inv [y.event b])).answer policy = .enrolled (.ok r') ∧
      r.created = r'.created) ∧
    (∃ s s', (Moment.mk (y.event b) (after policy inv [x.event a])).answer policy
        = .enrolled (.ok s) ∧
      (Moment.mk (y.event b) inv).answer policy = .enrolled (.ok s') ∧ s.created = s'.created) ∧
    ab.lastId = ba.lastId ∧ ab.size = ba.size ∧ ab.standings.Perm ba.standings ∧
    AnswersAlike { w with inventory := ab } { w with inventory := ba } := by
  intro inv ab ba
  have htidy : inv.Tidy := reachable_tidy policy es
  obtain ⟨r, s, hab⟩ := htidy.enteredBoth policy ha hb hdiffer hindifferent
  obtain ⟨s', r', hba⟩ := htidy.enteredBoth policy hb ha
    (hdiffer.imp Ne.symm Ne.symm) hindifferent.symm
  -- Either way each of the two finds its spot as it was before both.
  have hr : r.created = r'.created := by
    rw [Bool.eq_iff_iff, hab.first.created_iff, hba.created_iff]
  have hs : s.created = s'.created := by
    rw [Bool.eq_iff_iff, hab.created_iff, hba.first.created_iff]
  have hlast : ab.lastId = ba.lastId := by
    refine hab.lastId_eq.trans (Eq.trans ?_ hba.lastId_eq.symm)
    rw [hr, hs, UInt64.add_assoc, UInt64.add_assoc, UInt64.add_comm (if r'.created then 1 else 0)]
  have hstandings : ab.standings.Perm ba.standings :=
    hab.standings_perm.trans
      ((enrolAt_comm (spotOf_ne hdiffer) x y _).trans hba.standings_perm.symm)
  have hsize : ab.size = ba.size := by
    have hlength := hstandings.length_eq
    rwa [standings, standings, List.length_map, List.length_map] at hlength
  exact ⟨⟨r, r', hab.first.answer_eq, hba.second.answer_eq, hr⟩,
    ⟨s, s', hab.second.answer_eq, hba.first.answer_eq, hs⟩, hlast, hsize, hstandings,
    answersAlike_of_perm hstandings⟩

/-- A service without a deploy path, which joins the entry there is, and one with another deploy
    path, which opens an entry. The inventories differ in the numbers of the two. -/
theorem registrations_commute_joined_and_opened :
    let es : List Event := [⟨1000, .enrol ⟨"kv", some "ns/g/kv/7"⟩ ⟨"10.0.0.5", 9000⟩ [.tcp]⟩]
    let inv := after {} empty es
    let a : Service := ⟨"kv", none⟩
    let b : Service := ⟨"kv", some "ns/g/kv/8"⟩
    let x : Filing := ⟨⟨"10.0.0.6", 9000⟩, [.status], 1001⟩
    let y : Filing := ⟨⟨"10.0.0.7", 9000⟩, [.tcp, .grpc], 1001⟩
    let ab := after {} inv [x.event a, y.event b]
    let ba := after {} inv [y.event b, x.event a]
    a.name ≠ "" ∧ b.name ≠ "" ∧ (a.name ≠ b.name ∨ x.endpoint ≠ y.endpoint) ∧
    Service.Indifferent inv.services a b ∧ ab ≠ ba ∧ ab.lastId = ba.lastId ∧
    ab.standings.Perm ba.standings ∧
    AnswersAlike ⟨2000, 0, ab, {}, {}, {}, []⟩ ⟨2000, 0, ba, {}, {}, {}, []⟩ := by
  intro es inv a b x y ab ba
  have ha : a.name ≠ "" := by decide
  have hb : b.name ≠ "" := by decide
  have hdiffer : a.name ≠ b.name ∨ x.endpoint ≠ y.endpoint := .inr (by decide)
  have hindifferent : Service.Indifferent inv.services a b :=
    .inr (.inr (.inr ⟨⟨"kv", some "ns/g/kv/7"⟩, by decide, rfl⟩))
  obtain ⟨-, -, hlast, -, hstandings, halike⟩ :=
    registrations_commute {} es a b x y ⟨2000, 0, .empty, {}, {}, {}, []⟩ ha hb hdiffer hindifferent
  exact ⟨ha, hb, hdiffer, hindifferent, by decide, hlast, hstandings, halike⟩

/-- Of two services of a new name, one with a deploy path and one without, the first decides
    whether the name has deploy paths. -/
example :
    let a : Service := ⟨"kv", none⟩
    let b : Service := ⟨"kv", some "ns/g/kv/7"⟩
    let x : Filing := ⟨⟨"10.0.0.5", 9000⟩, [.tcp], 1000⟩
    let y : Filing := ⟨⟨"10.0.0.6", 9000⟩, [.tcp], 1000⟩
    ¬ (after {} empty [x.event a, y.event b]).standings.Perm
      (after {} empty [y.event b, x.event a]).standings := by
  decide

end Server

end ServiceRegistry
