/-
  ServiceRegistry.Proofs.Text.Lenient

  Lenient reading of what is UTF-8 after all: it gives back the text, character by character
  (`lenientChar_utf8`). What a leading byte lets follow depends on the length of the character,
  so there is one lemma for each length; each comes down to the division of the code point by
  powers of 64.

  Strings in messages are escaped byte by byte. What comes of it is text again, since every
  character is escaped in ASCII or left as it is (`spelled_stringBytes`).
-/
import Mathlib.Data.List.TakeWhile
import ServiceRegistry.Json.Basic

namespace ServiceRegistry.Text

/-! ## Bytes of characters -/

theorem utf8_eq (text : String) : utf8 text = text.toList.flatMap String.utf8EncodeChar := by
  rw [utf8, ← String.utf8Encode_toList, List.utf8Encode, List.data_toByteArray,
    List.toList_toArray]

theorem within_iff {low high b : UInt8} :
    (low ≤ b && b ≤ high) = true ↔ low.toNat ≤ b.toNat ∧ b.toNat ≤ high.toNat := by
  rw [Bool.and_eq_true, decide_eq_true_eq, decide_eq_true_eq, UInt8.le_iff_toNat_le,
    UInt8.le_iff_toNat_le]

/-- A byte after the first of a character. -/
def trailing (n : Nat) : UInt8 := UInt8.ofNat (n % 64 + 128)

theorem toNat_trailing (n : Nat) : (trailing n).toNat = n % 64 + 128 := by
  rw [trailing, UInt8.toNat_ofNat']
  omega

theorem isContinuation_trailing (n : Nat) : isContinuation (trailing n) = true := by
  rw [isContinuation, within_iff, toNat_trailing]
  show 128 ≤ n % 64 + 128 ∧ n % 64 + 128 ≤ 191
  omega

/-! ## Leading bytes -/

theorem continuationOf?_two {lead : UInt8} (h : 194 ≤ lead.toNat) (h' : lead.toNat ≤ 223) :
    continuationOf? lead = some (1, 0x80, 0xBF) := by
  have hrange : (0xC2 ≤ lead && lead ≤ 0xDF) = true := within_iff.2 ⟨h, h'⟩
  rw [continuationOf?, if_pos hrange]

/-- After the first and the last leading bytes of three the range is smaller, which leaves out
    what is shorter and what is no character. -/
theorem continuationOf?_three (lead : UInt8) (h : 224 ≤ lead.toNat) (h' : lead.toNat ≤ 239) :
    ∃ low high, continuationOf? lead = some (2, low, high) ∧
      low.toNat = (if lead.toNat = 224 then 160 else 128) ∧
      high.toNat = (if lead.toNat = 237 then 159 else 191) := by
  by_cases hfirst : lead.toNat = 224
  · obtain rfl : lead = 0xE0 := UInt8.toNat_inj.1 hfirst
    exact ⟨0xA0, 0xBF, rfl, rfl, rfl⟩
  by_cases hsurrogates : lead.toNat = 237
  · obtain rfl : lead = 0xED := UInt8.toNat_inj.1 hsurrogates
    exact ⟨0x80, 0x9F, rfl, rfl, rfl⟩
  · have htwo : ¬ (0xC2 ≤ lead && lead ≤ 0xDF) = true := by
      rw [within_iff]
      show ¬ (194 ≤ lead.toNat ∧ lead.toNat ≤ 223)
      omega
    have hthree : (0xE1 ≤ lead && lead ≤ 0xEF) = true := by
      rw [within_iff]
      show 225 ≤ lead.toNat ∧ lead.toNat ≤ 239
      omega
    have hE0 : lead ≠ 0xE0 := fun heq => hfirst (congrArg UInt8.toNat heq)
    have hED : lead ≠ 0xED := fun heq => hsurrogates (congrArg UInt8.toNat heq)
    refine ⟨0x80, 0xBF, ?_, (if_neg hfirst).symm, (if_neg hsurrogates).symm⟩
    rw [continuationOf?, if_neg htwo, if_neg hE0, if_neg hED, if_pos hthree]

theorem continuationOf?_four (lead : UInt8) (h : 240 ≤ lead.toNat) (h' : lead.toNat ≤ 244) :
    ∃ low high, continuationOf? lead = some (3, low, high) ∧
      low.toNat = (if lead.toNat = 240 then 144 else 128) ∧
      high.toNat = (if lead.toNat = 244 then 143 else 191) := by
  -- There are five of them.
  obtain hlead | hlead | hlead | hlead | hlead : lead.toNat = 240 ∨ lead.toNat = 241 ∨
      lead.toNat = 242 ∨ lead.toNat = 243 ∨ lead.toNat = 244 := by omega
  · obtain rfl : lead = 0xF0 := UInt8.toNat_inj.1 hlead
    exact ⟨0x90, 0xBF, rfl, rfl, rfl⟩
  · obtain rfl : lead = 0xF1 := UInt8.toNat_inj.1 hlead
    exact ⟨0x80, 0xBF, rfl, rfl, rfl⟩
  · obtain rfl : lead = 0xF2 := UInt8.toNat_inj.1 hlead
    exact ⟨0x80, 0xBF, rfl, rfl, rfl⟩
  · obtain rfl : lead = 0xF3 := UInt8.toNat_inj.1 hlead
    exact ⟨0x80, 0xBF, rfl, rfl, rfl⟩
  · obtain rfl : lead = 0xF4 := UInt8.toNat_inj.1 hlead
    exact ⟨0x80, 0x8F, rfl, rfl, rfl⟩

/-- A leading byte with as many bytes as it lets follow makes one character. -/
theorem lenientChar_continued {lead b low high : UInt8} {bs : List UInt8} (hlead : 128 ≤ lead.toNat)
    (hcontinuation : continuationOf? lead = some (bs.length + 1, low, high))
    (hlow : low.toNat ≤ b.toNat) (hhigh : b.toNat ≤ high.toNat)
    (hbs : ∀ x ∈ bs, isContinuation x = true) (rest : List UInt8) :
    lenientChar lead (b :: (bs ++ rest))
      = (Char.ofNat (codePoint lead (b :: bs)), bs.length + 1) := by
  have hnot : ¬ lead < 0x80 := by
    rw [UInt8.lt_iff_toNat_lt]
    exact Nat.not_lt.2 hlead
  have hrange : (low ≤ b && b ≤ high) = true := within_iff.2 ⟨hlow, hhigh⟩
  have hlength : continuationLength lead (b :: (bs ++ rest)) = bs.length + 1 := by
    simp only [continuationLength, hcontinuation]
    rw [if_pos hrange, Nat.add_sub_cancel, List.take_left, List.takeWhile_eq_self_iff.2 hbs,
      Nat.add_comm]
  rw [lenientChar, if_neg hnot, hlength]
  simp only [hcontinuation]
  rw [if_pos trivial, List.take_succ_cons, List.take_left]

/-! ## Characters -/

section

variable {c : Char}

theorem toNat_valid (c : Char) :
    c.toNat < 0xD800 ∨ 0xDFFF < c.toNat ∧ c.toNat < 0x110000 := c.valid

theorem utf8EncodeChar_eq (c : Char) :
    String.utf8EncodeChar c =
      if c.toNat ≤ 127 then [UInt8.ofNat c.toNat]
      else if c.toNat ≤ 2047 then [UInt8.ofNat (c.toNat / 64 % 32 + 192), trailing c.toNat]
      else if c.toNat ≤ 65535 then
        [UInt8.ofNat (c.toNat / 4096 % 16 + 224), trailing (c.toNat / 64), trailing c.toNat]
      else
        [UInt8.ofNat (c.toNat / 262144 % 8 + 240), trailing (c.toNat / 4096),
          trailing (c.toNat / 64), trailing c.toNat] := rfl

theorem lenientChar_one (h : c.toNat ≤ 127) (rest : List UInt8) :
    String.utf8EncodeChar c = [UInt8.ofNat c.toNat] ∧
      lenientChar (UInt8.ofNat c.toNat) rest = (c, 0) := by
  have hbyte : (UInt8.ofNat c.toNat).toNat = c.toNat := by
    rw [UInt8.toNat_ofNat']
    omega
  constructor
  · rw [utf8EncodeChar_eq, if_pos h]
  · have hascii : UInt8.ofNat c.toNat < 0x80 := by
      rw [UInt8.lt_iff_toNat_lt, hbyte]
      exact Nat.lt_succ_of_le h
    rw [lenientChar, if_pos hascii, hbyte, Char.ofNat_toNat]

theorem lenientChar_two (h : 127 < c.toNat) (h' : c.toNat ≤ 2047) (rest : List UInt8) :
    ∃ lead, String.utf8EncodeChar c = [lead, trailing c.toNat] ∧
      lenientChar lead (trailing c.toNat :: rest) = (c, 1) := by
  let lead := UInt8.ofNat (c.toNat / 64 % 32 + 192)
  have hlead : lead.toNat = c.toNat / 64 + 192 := by
    show (UInt8.ofNat _).toNat = _
    rw [UInt8.toNat_ofNat']
    omega
  have hfollows : continuationOf? lead = some (1, 0x80, 0xBF) :=
    continuationOf?_two (by omega) (by omega)
  have hlow : (0x80 : UInt8).toNat ≤ (trailing c.toNat).toNat := by
    rw [toNat_trailing]
    exact Nat.le_add_left 128 _
  have hhigh : (trailing c.toNat).toNat ≤ (0xBF : UInt8).toNat := by
    rw [toNat_trailing]
    show _ ≤ 191
    omega
  have hpoint : codePoint lead [trailing c.toNat] = c.toNat := by
    show lead.toNat % 32 * 64 + (trailing c.toNat).toNat % 64 = _
    rw [hlead, toNat_trailing]
    omega
  refine ⟨lead, by rw [utf8EncodeChar_eq, if_neg (Nat.not_le.2 h), if_pos h'], ?_⟩
  have hchar : lenientChar lead (trailing c.toNat :: rest)
      = (Char.ofNat (codePoint lead [trailing c.toNat]), 1) :=
    lenientChar_continued (by omega) hfollows hlow hhigh (List.forall_mem_nil _) rest
  rw [hchar, hpoint, Char.ofNat_toNat]

theorem lenientChar_three (h : 2047 < c.toNat) (h' : c.toNat ≤ 65535) (rest : List UInt8) :
    ∃ lead, String.utf8EncodeChar c = [lead, trailing (c.toNat / 64), trailing c.toNat] ∧
      lenientChar lead (trailing (c.toNat / 64) :: trailing c.toNat :: rest) = (c, 2) := by
  have hvalid := toNat_valid c
  let lead := UInt8.ofNat (c.toNat / 4096 % 16 + 224)
  have hlead : lead.toNat = c.toNat / 4096 + 224 := by
    show (UInt8.ofNat _).toNat = _
    rw [UInt8.toNat_ofNat']
    omega
  obtain ⟨low, high, hfollows, hlow, hhigh⟩ :=
    continuationOf?_three lead (by omega) (by omega)
  -- What begins with the first leading byte is not shorter, and surrogates are left out.
  have hlow : low.toNat ≤ (trailing (c.toNat / 64)).toNat := by
    rw [hlow, toNat_trailing]
    split <;> omega
  have hhigh : (trailing (c.toNat / 64)).toNat ≤ high.toNat := by
    rw [hhigh, toNat_trailing]
    split <;> omega
  have hpoint : codePoint lead [trailing (c.toNat / 64), trailing c.toNat] = c.toNat := by
    show (lead.toNat % 16 * 64 + (trailing (c.toNat / 64)).toNat % 64) * 64
      + (trailing c.toNat).toNat % 64 = _
    rw [hlead, toNat_trailing, toNat_trailing]
    omega
  refine ⟨lead, ?_, ?_⟩
  · rw [utf8EncodeChar_eq, if_neg (by omega), if_neg (Nat.not_le.2 h), if_pos h']
  · have hchar : lenientChar lead (trailing (c.toNat / 64) :: ([trailing c.toNat] ++ rest))
        = (Char.ofNat (codePoint lead [trailing (c.toNat / 64), trailing c.toNat]), 2) :=
      lenientChar_continued (by omega) hfollows hlow hhigh
        (List.forall_mem_singleton.2 (isContinuation_trailing _)) rest
    rw [hpoint, Char.ofNat_toNat] at hchar
    exact hchar

theorem lenientChar_four (h : 65535 < c.toNat) (rest : List UInt8) :
    ∃ lead, String.utf8EncodeChar c
        = [lead, trailing (c.toNat / 4096), trailing (c.toNat / 64), trailing c.toNat] ∧
      lenientChar lead (trailing (c.toNat / 4096) :: trailing (c.toNat / 64) ::
        trailing c.toNat :: rest) = (c, 3) := by
  have hvalid := toNat_valid c
  let lead := UInt8.ofNat (c.toNat / 262144 % 8 + 240)
  have hlead : lead.toNat = c.toNat / 262144 + 240 := by
    show (UInt8.ofNat _).toNat = _
    rw [UInt8.toNat_ofNat']
    omega
  obtain ⟨low, high, hfollows, hlow, hhigh⟩ :=
    continuationOf?_four lead (by omega) (by omega)
  -- There is no character beyond the range of the last leading byte.
  have hlow : low.toNat ≤ (trailing (c.toNat / 4096)).toNat := by
    rw [hlow, toNat_trailing]
    split <;> omega
  have hhigh : (trailing (c.toNat / 4096)).toNat ≤ high.toNat := by
    rw [hhigh, toNat_trailing]
    split <;> omega
  have hpoint : codePoint lead [trailing (c.toNat / 4096), trailing (c.toNat / 64),
      trailing c.toNat] = c.toNat := by
    show ((lead.toNat % 8 * 64 + (trailing (c.toNat / 4096)).toNat % 64) * 64
      + (trailing (c.toNat / 64)).toNat % 64) * 64 + (trailing c.toNat).toNat % 64 = _
    rw [hlead, toNat_trailing, toNat_trailing, toNat_trailing]
    omega
  refine ⟨lead, ?_, ?_⟩
  · rw [utf8EncodeChar_eq, if_neg (by omega), if_neg (by omega), if_neg (Nat.not_le.2 h)]
  · have hchar : lenientChar lead (trailing (c.toNat / 4096) ::
        ([trailing (c.toNat / 64), trailing c.toNat] ++ rest))
        = (Char.ofNat (codePoint lead [trailing (c.toNat / 4096), trailing (c.toNat / 64),
            trailing c.toNat]), 3) :=
      lenientChar_continued (by omega) hfollows hlow hhigh
        (List.forall_mem_cons.2 ⟨isContinuation_trailing _,
          List.forall_mem_singleton.2 (isContinuation_trailing _)⟩) rest
    rw [hpoint, Char.ofNat_toNat] at hchar
    exact hchar

/-- Whatever follows a character, it is read as this character, and with all its bytes. -/
theorem lenientChar_utf8 (c : Char) (rest : List UInt8) :
    ∃ lead following, String.utf8EncodeChar c = lead :: following ∧
      lenientChar lead (following ++ rest) = (c, following.length) := by
  by_cases hone : c.toNat ≤ 127
  · obtain ⟨hbytes, hchar⟩ := lenientChar_one hone rest
    exact ⟨_, _, hbytes, hchar⟩
  by_cases htwo : c.toNat ≤ 2047
  · obtain ⟨lead, hbytes, hchar⟩ := lenientChar_two (by omega) htwo rest
    exact ⟨_, _, hbytes, hchar⟩
  by_cases hthree : c.toNat ≤ 65535
  · obtain ⟨lead, hbytes, hchar⟩ := lenientChar_three (by omega) hthree rest
    exact ⟨_, _, hbytes, hchar⟩
  · obtain ⟨lead, hbytes, hchar⟩ := lenientChar_four (Nat.not_le.1 hthree) rest
    exact ⟨_, _, hbytes, hchar⟩

end

/-- An ASCII text has one byte for each character. -/
theorem utf8_of_ascii {text : String} (h : ∀ c ∈ text.toList, c.toNat < 128) :
    utf8 text = text.toList.map fun c => UInt8.ofNat c.toNat := by
  rw [utf8_eq]
  generalize text.toList = cs at h ⊢
  induction cs with
  | nil => rfl
  | cons c cs ih =>
    obtain ⟨hc, hcs⟩ := List.forall_mem_cons.1 h
    rw [List.flatMap_cons, utf8EncodeChar_eq, if_pos (by omega), ih hcs, List.map_cons,
      List.singleton_append]

/-! ## Texts -/

theorem lenientChars_utf8 (cs : List Char) {fuel : Nat}
    (hfuel : (cs.flatMap String.utf8EncodeChar).length ≤ fuel) :
    lenientChars fuel (cs.flatMap String.utf8EncodeChar) = cs := by
  induction cs generalizing fuel with
  | nil => cases fuel <;> rfl
  | cons c cs ih =>
    obtain ⟨lead, following, hbytes, hchar⟩ :=
      lenientChar_utf8 c (cs.flatMap String.utf8EncodeChar)
    rw [List.flatMap_cons, hbytes, List.cons_append] at hfuel ⊢
    rw [List.length_cons, List.length_append] at hfuel
    obtain ⟨fuel, rfl⟩ : ∃ n, fuel = n + 1 := ⟨fuel - 1, by omega⟩
    rw [lenientChars, hchar]
    dsimp only
    rw [List.drop_left, ih (by omega)]

/-- What is UTF-8 is read as it is. -/
theorem ofUtf8Lenient_utf8 (text : String) : ofUtf8Lenient (utf8 text) = text := by
  rw [ofUtf8Lenient, utf8_eq, lenientChars_utf8 _ (Nat.le_refl _), String.ofList_toList]

/-! ## Written strings -/

section

variable {b : UInt8}

/-- Escapes are ASCII. -/
theorem escapedByte_of_ascii (h : b.toNat < 128) : ∀ x ∈ Json.escapedByte b, x.toNat < 128 := by
  have hall : ∀ n < 128, (Json.escapedByte (UInt8.ofNat n)).all (·.toNat < 128) = true := by
    decide +kernel
  have hb := hall b.toNat h
  rw [UInt8.ofNat_toNat, List.all_eq_true] at hb
  exact fun x hx => of_decide_eq_true (hb x hx)

/-- Bytes beyond ASCII are written as they are. -/
theorem escapedByte_of_high (h : 128 ≤ b.toNat) : Json.escapedByte b = [b] := by
  have hne : ∀ x : UInt8, x.toNat < 128 → b ≠ x := by
    rintro x hx rfl
    omega
  have hcontrol : ¬ b < 0x20 := by
    rw [UInt8.lt_iff_toNat_lt]
    show ¬ b.toNat < 32
    omega
  rw [Json.escapedByte, if_neg (hne _ (by decide)), if_neg (hne _ (by decide)),
    if_neg (hne _ (by decide)), if_neg (hne _ (by decide)), if_neg (hne _ (by decide)),
    if_neg (hne _ (by decide)), if_neg (hne _ (by decide)), if_neg hcontrol]

end

/-- The bytes are those of some characters. -/
def Spelled (bs : List UInt8) : Prop := ∃ cs : List Char, bs = cs.flatMap String.utf8EncodeChar

theorem Spelled.append {bs bs' : List UInt8} (h : Spelled bs) (h' : Spelled bs') :
    Spelled (bs ++ bs') := by
  obtain ⟨cs, rfl⟩ := h
  obtain ⟨cs', rfl⟩ := h'
  exact ⟨cs ++ cs', List.flatMap_append.symm⟩

theorem spelled_char (c : Char) : Spelled (String.utf8EncodeChar c) :=
  ⟨[c], (List.flatMap_singleton _ c).symm⟩

theorem spelled_ascii {bs : List UInt8} (h : ∀ b ∈ bs, b.toNat < 128) : Spelled bs := by
  induction bs with
  | nil => exact ⟨[], rfl⟩
  | cons b bs ih =>
    obtain ⟨hb, hbs⟩ := List.forall_mem_cons.1 h
    have hpoint : (Char.ofNat b.toNat).toNat = b.toNat := by
      rw [Char.ofNat, dif_pos (Or.inl (by omega))]
      rfl
    have hbyte : String.utf8EncodeChar (Char.ofNat b.toNat) = [b] := by
      rw [utf8EncodeChar_eq, hpoint, if_pos (by omega), UInt8.ofNat_toNat]
    have hfirst := spelled_char (Char.ofNat b.toNat)
    rw [hbyte] at hfirst
    exact hfirst.append (ih hbs)

theorem high_of_mem {c : Char} (h : 127 < c.toNat) :
    ∀ b ∈ String.utf8EncodeChar c, 128 ≤ b.toNat := by
  have htrailing : ∀ n, 128 ≤ (trailing n).toNat := by
    intro n
    rw [toNat_trailing]
    omega
  have hlead : ∀ n, 128 ≤ n → n < 256 → 128 ≤ (UInt8.ofNat n).toNat := by
    intro n hlow hhigh
    rw [UInt8.toNat_ofNat']
    omega
  rw [utf8EncodeChar_eq, if_neg (Nat.not_le.2 h)]
  split
  · exact List.forall_mem_cons.2 ⟨hlead _ (by omega) (by omega),
      List.forall_mem_singleton.2 (htrailing _)⟩
  split
  · exact List.forall_mem_cons.2 ⟨hlead _ (by omega) (by omega),
      List.forall_mem_cons.2 ⟨htrailing _, List.forall_mem_singleton.2 (htrailing _)⟩⟩
  · exact List.forall_mem_cons.2 ⟨hlead _ (by omega) (by omega),
      List.forall_mem_cons.2 ⟨htrailing _,
        List.forall_mem_cons.2 ⟨htrailing _, List.forall_mem_singleton.2 (htrailing _)⟩⟩⟩

theorem flatMap_escapedByte_of_high {bs : List UInt8} (h : ∀ b ∈ bs, 128 ≤ b.toNat) :
    bs.flatMap Json.escapedByte = bs := by
  induction bs with
  | nil => rfl
  | cons b bs ih =>
    obtain ⟨hb, hbs⟩ := List.forall_mem_cons.1 h
    rw [List.flatMap_cons, escapedByte_of_high hb, ih hbs, List.singleton_append]

/-- A character is escaped in ASCII, or it is beyond ASCII and left as it is. -/
theorem spelled_escaped_char (c : Char) :
    Spelled ((String.utf8EncodeChar c).flatMap Json.escapedByte) := by
  by_cases hc : c.toNat ≤ 127
  · rw [utf8EncodeChar_eq, if_pos hc, List.flatMap_singleton]
    refine spelled_ascii (escapedByte_of_ascii ?_)
    rw [UInt8.toNat_ofNat']
    omega
  · rw [flatMap_escapedByte_of_high (high_of_mem (Nat.not_le.1 hc))]
    exact spelled_char c

theorem spelled_escaped (cs : List Char) :
    Spelled ((cs.flatMap String.utf8EncodeChar).flatMap Json.escapedByte) := by
  induction cs with
  | nil => exact ⟨[], rfl⟩
  | cons c cs ih =>
    rw [List.flatMap_cons, List.flatMap_append]
    exact (spelled_escaped_char c).append ih

/-- A written string is text again. -/
theorem spelled_stringBytes (text : String) : Spelled (Json.stringBytes text) := by
  have hquote : Spelled [ascii '"'] := spelled_char '"'
  rw [Json.stringBytes, utf8_eq]
  exact (hquote.append (spelled_escaped _)).append hquote

/-- What is written for a member that is a string, as text. -/
theorem exists_text_member (key value : String) :
    ∃ cs, utf8 (String.ofList ('\x7b' :: cs)) = (Json.object [(key, .string value)]).bytes := by
  have hcolon : Spelled [ascii ':'] := spelled_char ':'
  have hbrace : Spelled [ascii '\x7d'] := spelled_char '\x7d'
  obtain ⟨cs, hcs⟩ := (((spelled_stringBytes key).append hcolon).append
    (spelled_stringBytes value)).append hbrace
  refine ⟨cs, ?_⟩
  rw [utf8_eq, String.toList_ofList, List.flatMap_cons, ← hcs]
  simp only [Json.bytes, Json.memberBytes, Json.membersBytes, List.append_assoc,
    List.cons_append, List.nil_append]
  rfl

end ServiceRegistry.Text
