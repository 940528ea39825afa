/-
  ServiceRegistry.Proofs.Net.Ip

  The text of an address is read as that address (`ofText?_text`), for all addresses of four
  bytes and of eight groups. A group ends at a colon or at the end of the text, so at every
  place where four bytes might stand the first of them is missing its dot and the reader goes on
  with a group. Where a run of zeros was left out, the groups before it stop at two colons and
  the groups after it at the end, and as many zeros are put back as are missing from eight.
-/
import ServiceRegistry.Net.Ip
import ServiceRegistry.Proofs.Text.Digits

namespace ServiceRegistry.Net

open Text

/-! ## Numbers at the front of a text -/

section

variable {base most n : Nat} {rest : List Char}

/-- A text does not begin with a digit of the base. -/
def NoDigit (base : Nat) (rest : List Char) : Prop :=
  ∀ c ∈ rest.head?, (digitIn? base c).isSome = false

theorem NoDigit.takeWhile (h : NoDigit base rest) :
    (rest.takeWhile fun c => (digitIn? base c).isSome) = [] := by
  cases rest with
  | nil => rfl
  | cons c cs => rw [List.takeWhile_cons, h c rfl, if_neg Bool.false_ne_true]

theorem NoDigit.dropWhile (h : NoDigit base rest) :
    (rest.dropWhile fun c => (digitIn? base c).isSome) = rest := by
  cases rest with
  | nil => rfl
  | cons c cs => rw [List.dropWhile_cons, h c rfl, if_neg Bool.false_ne_true]

theorem NoDigit.readDigits? (h : NoDigit base rest) : Net.readDigits? base most rest = none := by
  unfold Net.readDigits?
  rw [h.takeWhile]
  rfl

theorem readDigits?_toDigits (hbase : 1 < base) (hsixteen : base ≤ 16)
    (hmost : (Nat.toDigits base n).length ≤ most) (hrest : NoDigit base rest) :
    readDigits? base most (Nat.toDigits base n ++ rest) = some (Nat.toDigits base n, n, rest) := by
  have hdigits : ∀ c ∈ Nat.toDigits base n, (digitIn? base c).isSome = true :=
    fun c => isSome_digitIn?_of_mem hbase hsixteen
  unfold readDigits?
  rw [List.takeWhile_append_of_pos hdigits, List.dropWhile_append_of_pos hdigits,
    hrest.takeWhile, hrest.dropWhile, List.append_nil]
  dsimp only
  rw [if_neg (Nat.not_lt.2 hmost), readNatural?_toDigits hbase hsixteen, Option.map_some]

end

/-! ## Four bytes -/

section

variable {rest : List Char}

theorem readByte?_toDigits (x : UInt8) (hrest : NoDigit 10 rest) :
    readByte? (Nat.toDigits 10 x.toNat ++ rest) = some (x, rest) := by
  have hlength : (Nat.toDigits 10 x.toNat).length ≤ 3 := by
    rw [Nat.length_toDigits_le_iff (by decide) (by decide)]
    exact Nat.lt_trans x.toNat_lt_size (by decide)
  have hleading : ¬ ((Nat.toDigits 10 x.toNat).head? = some '0' ∧
      (Nat.toDigits 10 x.toNat).length > 1) := by
    rintro ⟨hzero, hlong⟩
    rw [eq_zero_of_head?_toDigits (by decide) (by decide) hzero] at hlong
    exact absurd hlong (by decide)
  unfold readByte?
  rw [readDigits?_toDigits (by decide) (by decide) hlength hrest]
  dsimp only
  rw [if_pos ⟨x.toNat_lt_size, hleading⟩, UInt8.ofNat_toNat]

/-- A decimal digit is a hexadecimal one. -/
theorem NoDigit.ten (h : NoDigit 16 rest) : NoDigit 10 rest := by
  intro c hc
  have hnone := h c hc
  unfold digitIn? at hnone ⊢
  cases hvalue : digitValue? c with
  | none => rfl
  | some d =>
    rw [hvalue, Option.filter_some] at hnone
    rw [Option.filter_some]
    by_cases hd : d < 10
    · rw [if_pos (decide_eq_true (Nat.lt_trans hd (by decide)))] at hnone
      cases hnone
    · rw [if_neg (by rwa [decide_eq_true_eq]), Option.isSome_none]

theorem readV4?_of_noDigit (h : NoDigit 16 rest) : readV4? rest = none := by
  unfold readV4? readByte?
  rw [h.ten.readDigits?]
  rfl

theorem readChar?_self (c : Char) (cs : List Char) : readChar? c (c :: cs) = some cs := by
  rw [readChar?, if_pos rfl]

theorem readV4?_text (x : IpV4) (hrest : NoDigit 10 rest) :
    readV4? (x.text ++ rest) = some (x, rest) := by
  have hdot (cs : List Char) : NoDigit 10 ('.' :: cs) := by
    rintro c ⟨⟩
    decide
  unfold readV4? IpV4.text
  simp only [List.append_assoc, List.cons_append, readByte?_toDigits _ (hdot _), readChar?_self,
    readByte?_toDigits x.d hrest, Option.bind_eq_bind, Option.bind_some]
  rfl

/-! ## Where four bytes do not stand -/

/-- What may follow a group: nothing or a colon. -/
def Ends (rest : List Char) : Prop := ∀ c ∈ rest.head?, c = ':'

theorem ends_nil : Ends [] := nofun

theorem ends_colon (cs : List Char) : Ends (':' :: cs) := by
  rintro c ⟨⟩
  rfl

theorem Ends.noDigit (h : Ends rest) (base : Nat) : NoDigit base rest := by
  intro c hc
  have hvalue : digitValue? ':' = none := by decide
  rw [h c hc, digitIn?, hvalue]
  rfl

theorem eq_dropWhile_of_readByte? {cs : List Char} {x : UInt8} (h : readByte? cs = some (x, rest)) :
    rest = cs.dropWhile fun c => (digitIn? 10 c).isSome := by
  unfold readByte? at h
  cases hdigits : readDigits? 10 3 cs with
  | none =>
    rw [hdigits] at h
    cases h
  | some found =>
    obtain ⟨ds, n, rest'⟩ := found
    rw [hdigits] at h
    dsimp only at h
    split at h
    case isTrue =>
      obtain ⟨-, rfl⟩ := Prod.mk.inj (Option.some.inj h)
      unfold readDigits? at hdigits
      dsimp only at hdigits
      split at hdigits
      · cases hdigits
      · obtain ⟨m, -, hfound⟩ := Option.map_eq_some_iff.1 hdigits
        exact (congrArg (·.2.2) hfound).symm
    case isFalse => cases h

/-- Up to a colon or the end of the text there is no dot, so no four bytes begin. -/
theorem readV4?_eq_none {ds : List Char} (hds : '.' ∉ ds) (h : Ends rest) :
    readV4? (ds ++ rest) = none := by
  have hdot : ((ds ++ rest).dropWhile fun c => (digitIn? 10 c).isSome).head? ≠ some '.' := by
    induction ds with
    | nil =>
      cases rest with
      | nil => exact nofun
      | cons c cs =>
        rw [List.nil_append, List.dropWhile_cons, h.noDigit 10 c rfl, h c rfl,
          if_neg Bool.false_ne_true, List.head?_cons]
        decide
    | cons d ds ih =>
      rw [List.mem_cons, not_or] at hds
      rw [List.cons_append, List.dropWhile_cons]
      split
      · exact ih hds.2
      · rw [List.head?_cons, ne_eq, Option.some.injEq]
        exact Ne.symm hds.1
  unfold readV4?
  cases hbyte : readByte? (ds ++ rest) with
  | none => rfl
  | some p =>
    obtain ⟨x, rest'⟩ := p
    rw [← eq_dropWhile_of_readByte? hbyte] at hdot
    have hchar : readChar? '.' rest' = none := by
      cases rest' with
      | nil => rfl
      | cons c cs =>
        rw [readChar?, if_neg]
        rintro rfl
        exact hdot rfl
    simp only [Option.bind_eq_bind, Option.bind_some, hchar, Option.bind_none]

/-! ## One group -/

theorem readGroup?_toDigits (g : UInt16) (h : Ends rest) :
    readGroup? (Nat.toDigits 16 g.toNat ++ rest) = some (g, rest) := by
  have hlength : (Nat.toDigits 16 g.toNat).length ≤ 4 := by
    rw [Nat.length_toDigits_le_iff (by decide) (by decide)]
    exact g.toNat_lt_size
  rw [readGroup?, readDigits?_toDigits (by decide) (by decide) hlength (h.noDigit 16),
    Option.map_some]
  dsimp only
  rw [UInt16.ofNat_toNat]

theorem readGroup?_eq_none (h : NoDigit 16 rest) : readGroup? rest = none := by
  rw [readGroup?, h.readDigits?, Option.map_none]

theorem dot_not_mem_toDigits (g : UInt16) : '.' ∉ Nat.toDigits 16 g.toNat := by
  intro hdot
  have hdigit := isSome_digitIn?_of_mem (by decide) (by decide) hdot
  exact absurd hdigit (by decide)

/-! ## Several groups -/

/-- Where no digit follows, reading of groups stops. -/
theorem readGroups_stop (n : Nat) {first : Bool} {cs : List Char}
    (h : ∀ cs', readColon? first cs = some cs' → NoDigit 16 cs') :
    readGroups n first cs = ([], false, cs) := by
  cases n with
  | zero => rfl
  | succ n =>
    have hv4 : (readColon? first cs).bind readV4? = none := by
      cases hcolon : readColon? first cs with
      | none => rfl
      | some cs' => exact readV4?_of_noDigit (h cs' hcolon)
    have hgroup : (readColon? first cs).bind readGroup? = none := by
      cases hcolon : readColon? first cs with
      | none => rfl
      | some cs' => exact readGroup?_eq_none (h cs' hcolon)
    rw [readGroups, hv4, hgroup, ite_self]

theorem readGroups_group (n : Nat) {first : Bool} {cs : List Char} {g : UInt16}
    (hcs : readColon? first cs = some (Nat.toDigits 16 g.toNat ++ rest)) (h : Ends rest) :
    readGroups (n + 1) first cs =
      (g :: (readGroups n false rest).1, (readGroups n false rest).2) := by
  have hv4 : (readColon? first cs).bind readV4? = none := by
    rw [hcs]
    exact readV4?_eq_none (dot_not_mem_toDigits g) h
  have hgroup : (readColon? first cs).bind readGroup? = some (g, rest) := by
    rw [hcs]
    exact readGroup?_toDigits g h
  rw [readGroups, hv4, hgroup, ite_self]

/-- What may follow the last of some groups: nothing or two colons. -/
def Stops (rest : List Char) : Prop := rest = [] ∨ ∃ cs, rest = ':' :: ':' :: cs

theorem Stops.ends (h : Stops rest) : Ends rest := by
  rcases h with rfl | ⟨cs, rfl⟩
  · exact ends_nil
  · exact ends_colon _

theorem Stops.readGroups (h : Stops rest) (n : Nat) :
    Net.readGroups n false rest = ([], false, rest) := by
  refine readGroups_stop n fun cs' hcs' => ?_
  rcases h with rfl | ⟨cs, rfl⟩
  · cases hcs'
  · obtain rfl := Option.some.inj hcs'
    exact (ends_colon _).noDigit 16

theorem groupsText_cons_cons (g g' : UInt16) (gs : List UInt16) :
    groupsText (g :: g' :: gs) = Nat.toDigits 16 g.toNat ++ ':' :: groupsText (g' :: gs) := rfl

theorem readGroups_cons (k : Nat) (g : UInt16) (gs : List UInt16) (hrest : Stops rest)
    {first : Bool} {cs : List Char}
    (hcs : readColon? first cs = some (groupsText (g :: gs) ++ rest)) :
    readGroups (gs.length + 1 + k) first cs = (g :: gs, false, rest) := by
  -- Along the groups; all but the first have a colon before them.
  induction gs generalizing g first cs with
  | nil =>
    rw [Nat.add_right_comm, readGroups_group _ hcs hrest.ends, hrest.readGroups]
  | cons g' gs ih =>
    rw [groupsText_cons_cons, List.append_assoc] at hcs
    have hcolon : readColon? false (':' :: groupsText (g' :: gs) ++ rest)
        = some (groupsText (g' :: gs) ++ rest) := readChar?_self ':' _
    rw [Nat.add_right_comm, readGroups_group _ hcs (ends_colon _), List.length_cons,
      ih g' hcolon]

theorem readGroups_groupsText (k : Nat) (gs : List UInt16) (hrest : Stops rest) :
    readGroups (gs.length + k) true (groupsText gs ++ rest) = (gs, false, rest) := by
  cases gs with
  | nil =>
    refine readGroups_stop _ ?_
    rintro cs' ⟨⟩
    exact hrest.ends.noDigit 16
  | cons g gs => exact readGroups_cons k g gs hrest rfl

/-! ## Eight groups -/

theorem ofGroups?_groups (x : IpV6) : IpV6.ofGroups? x.groups = some x :=
  dif_pos x.length_groups

theorem readV6?_groupsText (x : IpV6) : readV6? (groupsText x.groups) = some (x, []) := by
  have hgroups := readGroups_groupsText 0 x.groups (.inl rfl)
  rw [x.length_groups, List.append_nil] at hgroups
  unfold readV6?
  rw [hgroups]
  dsimp only
  rw [if_pos x.length_groups, ofGroups?_groups, Option.map_some]

/-- A run of zeros that was left out is put back. -/
theorem readV6?_shortened {x : IpV6} {before after : List UInt16} {n : Nat} (hn : 0 < n)
    (h : before ++ List.replicate n 0 ++ after = x.groups) :
    readV6? (groupsText before ++ ':' :: ':' :: groupsText after) = some (x, []) := by
  have hlength : before.length + n + after.length = 8 := by
    rw [← x.length_groups, ← h, List.length_append, List.length_append, List.length_replicate]
  have hbefore := readGroups_groupsText (8 - before.length) before
    (.inr ⟨groupsText after, rfl⟩)
  have hafter := readGroups_groupsText (7 - before.length - after.length) after (.inl rfl)
  rw [Nat.add_sub_cancel' (by omega)] at hbefore
  rw [Nat.add_sub_cancel' (by omega), List.append_nil] at hafter
  have hzeros : 8 - before.length - after.length = n := by omega
  unfold readV6?
  rw [hbefore]
  dsimp only
  rw [if_neg (by omega), if_neg Bool.false_ne_true, readChar?_self, Option.bind_eq_bind,
    Option.bind_some, readChar?_self, Option.bind_some, hafter]
  dsimp only
  rw [hzeros, h, ofGroups?_groups, Option.map_some]

end

/-! ## Runs of zeros -/

theorem replicate_zerosAtFront (gs : List UInt16) :
    List.replicate (zerosAtFront gs) 0 ++ gs.drop (zerosAtFront gs) = gs := by
  induction gs with
  | nil => rfl
  | cons g gs ih =>
    unfold zerosAtFront at ih ⊢
    rw [List.takeWhile_cons]
    split
    case isTrue hzero =>
      rw [List.length_cons, List.replicate_succ, List.cons_append, List.drop_succ_cons, ih,
        beq_iff_eq.1 hzero]
    case isFalse => rfl

/-- Leaving out the longest run of zeros and putting it back gives the groups. -/
theorem groups_of_longestZeros (gs : List UInt16) :
    gs.take (longestZeros gs).1 ++ List.replicate (longestZeros gs).2 0
      ++ gs.drop ((longestZeros gs).1 + (longestZeros gs).2) = gs := by
  induction gs with
  | nil => rfl
  | cons g gs ih =>
    rw [longestZeros]
    dsimp only
    split
    · rw [List.take_zero, List.nil_append, Nat.zero_add]
      exact replicate_zerosAtFront (g :: gs)
    · rw [List.take_succ_cons, Nat.add_right_comm, List.drop_succ_cons, List.cons_append,
        List.cons_append, ih]

/-! ## Addresses of four bytes as groups -/

theorem joined_halves (g : UInt16) :
    (g >>> 8).toUInt8.toUInt16 * 256 + g.toUInt8.toUInt16 = g := by
  have hg : g.toNat < 65536 := g.toNat_lt_size
  have hhigh : (g >>> 8).toNat = g.toNat / 256 := by
    rw [UInt16.toNat_shiftRight, Nat.shiftRight_eq_div_pow]
    rfl
  have h256 : (256 : UInt16).toNat = 256 := rfl
  apply UInt16.toNat_inj.1
  rw [UInt16.toNat_add, UInt16.toNat_mul, UInt8.toNat_toUInt16, UInt8.toNat_toUInt16,
    UInt16.toNat_toUInt8, UInt16.toNat_toUInt8, hhigh, h256]
  omega

/-- An address of eight groups that stands for one of four bytes ends with its two groups. -/
theorem IpV6.groups_of_mapped? {x : IpV6} {y : IpV4} (h : x.mapped? = some y) :
    x.groups = List.replicate 5 0 ++ 0xffff :: y.groups := by
  unfold mapped? at h
  split at h
  case h_1 g g' hgroups =>
    obtain rfl := Option.some.inj h
    rw [hgroups, IpV4.groups, joined_halves, joined_halves]
    rfl
  case h_2 => cases h

theorem readGroups_v4 (n : Nat) {first : Bool} {cs : List Char} {y : IpV4}
    (hcs : readColon? first cs = some y.text) :
    readGroups (n + 2) first cs = (y.groups, true, []) := by
  have hv4 : (readColon? first cs).bind readV4? = some (y, []) := by
    have hread : readV4? (y.text ++ []) = some (y, []) := readV4?_text y nofun
    rwa [List.append_nil, ← Option.bind_some (f := readV4?), ← hcs] at hread
  rw [readGroups, if_neg (Nat.succ_ne_zero n), hv4]

theorem readV6?_mapped {x : IpV6} {y : IpV4} (h : x.mapped? = some y) :
    readV6? ("::ffff:".toList ++ y.text) = some (x, []) := by
  have htext : "::ffff:".toList ++ y.text
      = ':' :: ':' :: (Nat.toDigits 16 (0xffff : UInt16).toNat ++ ':' :: y.text) := by
    have hffff : Nat.toDigits 16 (0xffff : UInt16).toNat = ['f', 'f', 'f', 'f'] := by decide
    rw [hffff]
    rfl
  have hfront : readGroups 8 true ("::ffff:".toList ++ y.text)
      = ([], false, "::ffff:".toList ++ y.text) := by
    refine readGroups_stop 8 ?_
    rintro cs' ⟨⟩
    exact (ends_colon _).noDigit 16
  have hcolon : readColon? false (':' :: y.text) = some y.text := readChar?_self ':' _
  have hback : readGroups 7 true (Nat.toDigits 16 (0xffff : UInt16).toNat ++ ':' :: y.text)
      = (0xffff :: y.groups, true, []) := by
    rw [readGroups_group 6 rfl (ends_colon _), readGroups_v4 4 hcolon]
  unfold readV6?
  rw [hfront]
  dsimp only
  rw [if_neg (by decide), if_neg Bool.false_ne_true, htext, readChar?_self, Option.bind_eq_bind,
    Option.bind_some, readChar?_self, Option.bind_some]
  simp only [List.length_nil, Nat.sub_zero, hback]
  have hgroups : [] ++ List.replicate (8 - (0xffff :: y.groups).length) 0 ++ 0xffff :: y.groups
      = x.groups := (IpV6.groups_of_mapped? h).symm
  rw [hgroups, ofGroups?_groups, Option.map_some]

/-! ## All addresses -/

theorem readV6?_text (x : IpV6) : readV6? x.text = some (x, []) := by
  unfold IpV6.text
  split
  case h_1 y hmapped => exact readV6?_mapped hmapped
  case h_2 =>
    dsimp only
    split
    case isTrue hlong =>
      exact readV6?_shortened (Nat.lt_trans Nat.zero_lt_one hlong)
        (groups_of_longestZeros x.groups)
    case isFalse => exact readV6?_groupsText x

theorem readV4?_groupsText (gs : List UInt16) {rest : List Char} (h : Ends rest) :
    readV4? (groupsText gs ++ rest) = none := by
  match gs with
  | [] => exact readV4?_of_noDigit (h.noDigit 16)
  | [g] => exact readV4?_eq_none (dot_not_mem_toDigits g) h
  | g :: g' :: gs =>
    rw [groupsText_cons_cons, List.append_assoc]
    exact readV4?_eq_none (dot_not_mem_toDigits g) (ends_colon _)

theorem readV4?_textV6 (x : IpV6) : readV4? x.text = none := by
  unfold IpV6.text
  split
  case h_1 y _ => exact readV4?_of_noDigit ((ends_colon _).noDigit 16)
  case h_2 =>
    dsimp only
    split
    case isTrue => exact readV4?_groupsText _ (ends_colon _)
    case isFalse =>
      have hnone := readV4?_groupsText x.groups ends_nil
      rwa [List.append_nil] at hnone

/-- Every address is read from its text. -/
theorem ofText?_text (ip : Ip) : Ip.ofText? ip.text = some ip := by
  cases ip with
  | v4 x =>
    have hread : readV4? (x.text ++ []) = some (x, []) := readV4?_text x nofun
    rw [List.append_nil] at hread
    simp only [Ip.ofText?, Ip.text, String.toList_ofList, hread]
  | v6 x =>
    simp only [Ip.ofText?, Ip.text, String.toList_ofList, readV4?_textV6, readV6?_text,
      Option.map_some]

end ServiceRegistry.Net
