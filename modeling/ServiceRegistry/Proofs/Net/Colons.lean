/-
  ServiceRegistry.Proofs.Net.Colons

  Which texts of addresses have colons: all those of eight groups, in whatever spelling, and
  none of four bytes. Numbers and dots are passed over without meeting a colon, so four bytes
  are read from a text without one; and without one no more than two groups are found.
-/
import ServiceRegistry.Proofs.Net.Ip

namespace ServiceRegistry.Net

open Text

section

variable {cs rest : List Char}

/-! ## Numbers and dots -/

/-- A colon is no digit of any base, so none is among the digits at the front. -/
theorem colon_mem_dropWhile (base : Nat) (cs : List Char) :
    ':' ∈ cs.dropWhile (fun c => (digitIn? base c).isSome) ↔ ':' ∈ cs := by
  have hcolon : (digitIn? base ':').isSome = false := (ends_colon []).noDigit base ':' rfl
  constructor
  · exact fun h => (List.dropWhile_suffix _).subset h
  · intro h
    rw [← List.takeWhile_append_dropWhile (p := fun c => (digitIn? base c).isSome) (l := cs),
      List.mem_append] at h
    rcases h with hfront | hback
    · have hdigit := List.all_eq_true.1 List.all_takeWhile ':' hfront
      rw [hcolon] at hdigit
      cases hdigit
    · exact hback

theorem colon_mem_of_readByte? {x : UInt8} (h : readByte? cs = some (x, rest)) :
    ':' ∈ rest ↔ ':' ∈ cs := by
  rw [eq_dropWhile_of_readByte? h]
  exact colon_mem_dropWhile 10 cs

theorem colon_mem_of_readGroup? {g : UInt16} (h : readGroup? cs = some (g, rest)) :
    ':' ∈ rest ↔ ':' ∈ cs := by
  obtain ⟨⟨ds, n, rest'⟩, hdigits, heq⟩ := Option.map_eq_some_iff.1 h
  obtain ⟨-, rfl⟩ := Prod.mk.inj heq
  unfold readDigits? at hdigits
  dsimp only at hdigits
  split at hdigits
  · cases hdigits
  · obtain ⟨m, -, hfound⟩ := Option.map_eq_some_iff.1 hdigits
    obtain ⟨-, -, rfl⟩ : _ ∧ _ ∧ _ = rest' := by simpa using hfound
    exact colon_mem_dropWhile 16 cs

theorem eq_cons_of_readChar? {c : Char} (h : readChar? c cs = some rest) : cs = c :: rest := by
  cases cs with
  | nil => cases h
  | cons d cs =>
    rw [readChar?] at h
    split at h
    case isTrue heq => rw [heq, Option.some.inj h]
    case isFalse => cases h

theorem colon_mem_of_readDot? (h : readChar? '.' cs = some rest) : ':' ∈ rest ↔ ':' ∈ cs := by
  have hdot : ':' ≠ '.' := by decide
  rw [eq_cons_of_readChar? h, List.mem_cons, or_iff_right hdot]

theorem colon_mem_of_readV4? {x : IpV4} (h : readV4? cs = some (x, rest)) :
    ':' ∈ rest ↔ ':' ∈ cs := by
  simp only [readV4?, Option.bind_eq_bind, Option.pure_def, Option.bind_eq_some_iff,
    Option.some.injEq] at h
  obtain ⟨⟨a, cs₁⟩, ha, cs₂, hdot₁, ⟨b, cs₃⟩, hb, cs₄, hdot₂, ⟨c, cs₅⟩, hc, cs₆, hdot₃,
    ⟨d, cs₇⟩, hd, heq⟩ := h
  obtain ⟨-, rfl⟩ := Prod.mk.inj heq
  calc ':' ∈ cs₇
    _ ↔ ':' ∈ cs₆ := colon_mem_of_readByte? hd
    _ ↔ ':' ∈ cs₅ := colon_mem_of_readDot? hdot₃
    _ ↔ ':' ∈ cs₄ := colon_mem_of_readByte? hc
    _ ↔ ':' ∈ cs₃ := colon_mem_of_readDot? hdot₂
    _ ↔ ':' ∈ cs₂ := colon_mem_of_readByte? hb
    _ ↔ ':' ∈ cs₁ := colon_mem_of_readDot? hdot₁
    _ ↔ ':' ∈ cs := colon_mem_of_readByte? ha

/-! ## Groups -/

theorem readChar?_colon_eq_none (h : ':' ∉ cs) : readChar? ':' cs = none := by
  cases hread : readChar? ':' cs with
  | none => rfl
  | some rest =>
    rw [eq_cons_of_readChar? hread] at h
    exact absurd List.mem_cons_self h

/-- After the first group nothing goes on without a colon. -/
theorem readGroups_of_noColon (n : Nat) (h : ':' ∉ cs) :
    readGroups n false cs = ([], false, cs) :=
  readGroups_stop n fun cs' hcs' => by
    rw [readColon?, if_neg Bool.false_ne_true, readChar?_colon_eq_none h] at hcs'
    cases hcs'

/-- Without a colon there is one group at most, or there are the two of four bytes. -/
theorem readGroups_first_of_noColon (n : Nat) (h : ':' ∉ cs) :
    (readGroups n true cs).1.length ≤ 2 ∧ ':' ∉ (readGroups n true cs).2.2 := by
  cases n with
  | zero => exact ⟨Nat.zero_le 2, h⟩
  | succ n =>
    rw [readGroups]
    split
    case h_1 x rest hread =>
      refine ⟨Nat.le_refl 2, ?_⟩
      split at hread
      · cases hread
      · rwa [colon_mem_of_readV4? hread]
    case h_2 =>
      split
      case h_1 g rest hread =>
        have hrest : ':' ∉ rest := by rwa [colon_mem_of_readGroup? hread]
        rw [readGroups_of_noColon n hrest]
        exact ⟨Nat.le_succ 1, hrest⟩
      case h_2 => exact ⟨Nat.zero_le 2, h⟩

theorem readV6?_of_noColon (h : ':' ∉ cs) : readV6? cs = none := by
  obtain ⟨hfew, hrest⟩ := readGroups_first_of_noColon 8 h
  unfold readV6?
  dsimp only
  rw [if_neg (by omega), readChar?_colon_eq_none hrest]
  split <;> rfl

end

/-! ## Texts of addresses -/

variable {text : String}

theorem colon_not_mem_of_v4 {x : IpV4} (h : Ip.ofText? text = some (.v4 x)) :
    ':' ∉ text.toList := by
  unfold Ip.ofText? at h
  cases hread : readV4? text.toList with
  | some found =>
    obtain ⟨y, rest⟩ := found
    rw [hread] at h
    cases rest with
    | nil =>
      rw [← colon_mem_of_readV4? hread]
      exact List.not_mem_nil
    | cons c cs => cases h
  | none =>
    -- Then it is read as eight groups, if at all.
    rw [hread] at h
    cases hgroups : readV6? text.toList with
    | none =>
      rw [hgroups] at h
      cases h
    | some found =>
      obtain ⟨y, rest⟩ := found
      rw [hgroups] at h
      cases rest <;> cases h

theorem colon_mem_of_v6 {x : IpV6} (h : Ip.ofText? text = some (.v6 x)) : ':' ∈ text.toList := by
  refine Decidable.byContradiction fun hnone => ?_
  unfold Ip.ofText? at h
  rw [readV6?_of_noColon hnone] at h
  cases hread : readV4? text.toList with
  | some found =>
    obtain ⟨y, rest⟩ := found
    rw [hread] at h
    cases rest <;> cases h
  | none =>
    rw [hread] at h
    cases h

end ServiceRegistry.Net
