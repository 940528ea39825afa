/-
  ServiceRegistry.Proofs.PublishedHost

  Which hosts are published. A host is the announced one, the address of the peer or that of
  this machine, and the last only where one of the others means the machine it is used on
  (`publishedHost_cases`). That is told from `localhost` in any letter case and from every text of
  a loopback address, since texts are read as addresses. It is not told from a loopback address
  of four bytes written as one of eight groups.
-/
import ServiceRegistry.Proofs.Net.Ip
import ServiceRegistry.PublishedHost

namespace ServiceRegistry

open Net

/-! ## Loopback addresses of four bytes in eight groups -/

namespace Net

/-- A loopback address of four bytes, written as one of eight groups. -/
def Ip.isMappedLoopback : Ip → Bool
  | v4 _ => false
  | v6 x => x.mapped?.any fun y => (v4 y).isLoopback

/-- The groups of a mapped address are not those of the loopback address. -/
theorem isLoopback_of_mapped? {x : IpV6} {y : IpV4} (h : x.mapped? = some y) :
    (Ip.v6 x).isLoopback = false := by
  rw [Ip.isLoopback, IpV6.groups_of_mapped? h]
  rfl

theorem isLoopback_of_isMappedLoopback {ip : Ip} (h : ip.isMappedLoopback = true) :
    ip.isLoopback = false := by
  cases ip with
  | v4 x => cases h
  | v6 x =>
    unfold Ip.isMappedLoopback at h
    dsimp only at h
    cases hmapped : x.mapped? with
    | none =>
      rw [hmapped] at h
      cases h
    | some y => exact isLoopback_of_mapped? hmapped

theorem isLoopback_canonical (ip : Ip) :
    ip.canonical.isLoopback = (ip.isLoopback || ip.isMappedLoopback) := by
  cases ip with
  | v4 x => exact (Bool.or_false _).symm
  | v6 x =>
    cases hmapped : x.mapped? with
    | none => simp only [Ip.canonical, Ip.isMappedLoopback, hmapped, Option.any_none, Bool.or_false]
    | some y =>
      simp only [Ip.canonical, Ip.isMappedLoopback, hmapped, Option.any_some,
        isLoopback_of_mapped? hmapped, Bool.false_or]

/-! ## Names -/

theorem ofText?_of_noDigit {text : String} (h : NoDigit 16 text.toList)
    (hcolon : ':' ∉ text.toList.head?) : Ip.ofText? text = none := by
  have hgroups : readGroups 8 true text.toList = ([], false, text.toList) := by
    refine readGroups_stop 8 ?_
    rintro cs' ⟨⟩
    exact h
  have hchar : readChar? ':' text.toList = none := by
    cases htext : text.toList with
    | nil => rfl
    | cons c cs =>
      rw [readChar?, if_neg]
      rintro rfl
      exact hcolon (by rw [htext]; rfl)
  have hv6 : readV6? text.toList = none := by
    unfold readV6?
    rw [hgroups]
    dsimp only
    rw [if_neg (by decide), if_neg Bool.false_ne_true, hchar]
    rfl
  simp only [Ip.ofText?, readV4?_of_noDigit h, hv6, Option.map_none]

end Net

theorem eq_l_of_toLower {c : Char} (h : c.toLower = 'l') : c = 'l' ∨ c = 'L' := by
  unfold Char.toLower at h
  split at h
  case isTrue =>
    have hval : c.val + ('a'.val - 'A'.val) = 'L'.val + ('a'.val - 'A'.val) := congrArg Char.val h
    exact .inr (Char.ext ((UInt32.add_left_inj _).1 hval))
  case isFalse => exact .inl h

/-- No spelling of `localhost` is the text of an address. -/
theorem ofText?_localName {host : String} (h : Text.sameIgnoringCase host localName = true) :
    Ip.ofText? host = none := by
  have hletters : host.toList.map Char.toLower = localName.toList.map Char.toLower :=
    beq_iff_eq.1 h
  have hfirst : ∀ c ∈ host.toList.head?, c = 'l' ∨ c = 'L' := by
    intro c hc
    have hlower := congrArg List.head? hletters
    rw [List.head?_map, hc] at hlower
    exact eq_l_of_toLower (Option.some.inj hlower)
  refine ofText?_of_noDigit (fun c hc => ?_) fun hc => ?_
  · rcases hfirst c hc with rfl | rfl <;> decide
  · rcases hfirst ':' hc with heq | heq <;> exact absurd heq (by decide)

theorem sameIgnoringCase_of_ofText? {host : String} {ip : Ip} (h : Ip.ofText? host = some ip) :
    Text.sameIgnoringCase host localName = false := by
  rw [Bool.eq_false_iff]
  intro hsame
  rw [ofText?_localName hsame] at h
  cases h

/-- The text of an address is told by the address. -/
theorem isLoopbackHost_of_ofText? {host : String} {ip : Ip} (h : Ip.ofText? host = some ip) :
    isLoopbackHost host = ip.isLoopback := by
  simp only [isLoopbackHost, sameIgnoringCase_of_ofText? h, h, Option.any_some, Bool.false_or]

/-! ## Published hosts -/

section

variable {announced given host : String} {peer localIp : Option Ip} {ip : Ip}

/-- What is given for a host is published, unless it means the machine it is used on. -/
theorem publishedHost_cases (h : publishedHost announced peer localIp = .ok host) :
    ∃ given, announcedOrPeer announced peer = .ok given ∧
      (isLoopbackHost given = true ∧ (∃ ip, localIp = some ip ∧ host = ip.text) ∨
        isLoopbackHost given = false ∧ host = given) := by
  unfold publishedHost at h
  cases hgiven : announcedOrPeer announced peer with
  | error e =>
    rw [hgiven] at h
    cases h
  | ok given =>
    rw [hgiven] at h
    dsimp only at h
    refine ⟨given, rfl, ?_⟩
    split at h
    case isTrue hself =>
      cases hlocal : localIp with
      | none =>
        rw [hlocal] at h
        cases h
      | some ip =>
        rw [hlocal] at h
        exact .inl ⟨hself, ip, rfl, (Except.ok.inj h).symm⟩
    case isFalse hother => exact .inr ⟨Bool.eq_false_iff.2 hother, (Except.ok.inj h).symm⟩

/-- What is given for a host is the text of an address exactly if the announcement is one, or is
    empty and that is the address of the peer. -/
theorem ofText?_announcedOrPeer (h : announcedOrPeer announced peer = .ok given) :
    Ip.ofText? given = some ip ↔
      Ip.ofText? announced = some ip ∨ announced = "" ∧ peer = some ip := by
  unfold announcedOrPeer at h
  split at h
  case isTrue hempty =>
    have hnone : Ip.ofText? announced = none := by
      rw [hempty]
      rfl
    cases peer with
    | none => cases h
    | some ip' =>
      obtain rfl := Except.ok.inj h
      rw [ofText?_text, hnone]
      simp only [hempty, true_and, reduceCtorEq, false_or]
  case isFalse hannounced =>
    obtain rfl := Except.ok.inj h
    simp only [hannounced, false_and, or_false]

/-- Where this machine does not go by a loopback address, a published host is `localhost` in no
    letter case, and the text of a loopback address exactly if the announcement is the text of a
    loopback address of four bytes in eight groups, or is empty and the peer has such an address. -/
theorem publishedHost_loopback_iff
    (hlocal : ∀ ip, localIp = some ip → ip.canonical.isLoopback = false)
    (h : publishedHost announced peer localIp = .ok host) :
    Text.sameIgnoringCase host localName = false ∧
    ((∃ ip, Ip.ofText? host = some ip ∧ ip.canonical.isLoopback = true) ↔
      ∃ ip, ip.isMappedLoopback = true ∧
        (Ip.ofText? announced = some ip ∨ announced = "" ∧ peer = some ip)) := by
  obtain ⟨given, hgiven, ⟨hself, own, hown, rfl⟩ | ⟨hother, rfl⟩⟩ := publishedHost_cases h
  case inl =>
    -- The address of this machine is published, and is no loopback address by assumption.
    refine ⟨sameIgnoringCase_of_ofText? (ofText?_text own), ?_, ?_⟩
    · rintro ⟨ip, hread, hloopback⟩
      obtain rfl : own = ip := Option.some.inj ((ofText?_text own).symm.trans hread)
      rw [hlocal own hown] at hloopback
      cases hloopback
    · rintro ⟨ip, hmapped, hsource⟩
      have hread := (ofText?_announcedOrPeer hgiven).2 hsource
      rw [isLoopbackHost_of_ofText? hread, isLoopback_of_isMappedLoopback hmapped] at hself
      cases hself
  case inr =>
    -- What was given is published; a loopback address in it has not been told.
    refine ⟨(Bool.or_eq_false_iff.1 hother).1, ?_, ?_⟩
    · rintro ⟨ip, hread, hloopback⟩
      rw [isLoopback_canonical, ← isLoopbackHost_of_ofText? hread, hother,
        Bool.false_or] at hloopback
      exact ⟨ip, hloopback, (ofText?_announcedOrPeer hgiven).1 hread⟩
    · rintro ⟨ip, hmapped, hsource⟩
      refine ⟨ip, (ofText?_announcedOrPeer hgiven).2 hsource, ?_⟩
      rw [isLoopback_canonical, hmapped, Bool.or_true]

/-- `LocalHost` is announced, and this machine goes by an address of four bytes in eight groups. -/
theorem publishedHost_loopback_iff_localName :
    let peer : Ip := .v4 ⟨10, 0, 0, 5⟩
    let own : Ip := .v6 ⟨[0, 0, 0, 0, 0, 0xffff, 0xc0a8, 0x0114], rfl⟩
    own.canonical.isLoopback = false ∧
    publishedHost "LocalHost" (some peer) (some own) = .ok "::ffff:192.168.1.20" ∧
    Text.sameIgnoringCase "::ffff:192.168.1.20" localName = false ∧
    ¬ ∃ ip, Ip.ofText? "::ffff:192.168.1.20" = some ip ∧ ip.canonical.isLoopback = true := by
  intro peer own
  have hown : own.canonical.isLoopback = false := by decide
  have hlocal : ∀ ip, some own = some ip → ip.canonical.isLoopback = false := by
    rintro _ ⟨⟩
    exact hown
  have hpublished : publishedHost "LocalHost" (some peer) (some own) =
      .ok "::ffff:192.168.1.20" := by rfl
  obtain ⟨hname, hiff⟩ := publishedHost_loopback_iff hlocal hpublished
  refine ⟨hown, hpublished, hname, fun hloopback => ?_⟩
  obtain ⟨ip, -, hread | ⟨hempty, -⟩⟩ := hiff.1 hloopback
  · have hnone : Ip.ofText? "LocalHost" = none := by rfl
    rw [hnone] at hread
    cases hread
  · exact absurd hempty (by decide)

/-- A mapped `127.0.0.1` is published where it is announced, though as the address of a connection
    it would have given way to that of this machine. -/
theorem mapped_loopback_published :
    let own : Ip := .v4 ⟨192, 168, 1, 20⟩
    let mapped : Ip := .v6 ⟨[0, 0, 0, 0, 0, 0xffff, 0x7f00, 0x0001], rfl⟩
    own.canonical.isLoopback = false ∧
    publishedHost "::ffff:127.0.0.1" (some (.v4 ⟨10, 0, 0, 5⟩)) (some own) =
      .ok "::ffff:127.0.0.1" ∧
    Ip.ofText? "::ffff:127.0.0.1" = some mapped ∧ mapped.canonical = .v4 ⟨127, 0, 0, 1⟩ ∧
    mapped.canonical.isLoopback = true ∧
    publishedHost "" (some mapped.canonical) (some own) = .ok "192.168.1.20" := by
  refine ⟨by decide, by rfl, by rfl, by rfl, by decide, by rfl⟩

end

end ServiceRegistry
