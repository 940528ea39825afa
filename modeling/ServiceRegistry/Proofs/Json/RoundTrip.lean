/-
  ServiceRegistry.Proofs.Json.RoundTrip

  Compact text is read back. The text of a value is read as a tree of the same form, and what
  follows the text is left (`Reads`). Both writing and reading go along the form of values, so
  there is one lemma for strings, one for numbers, one for arrays and one for objects, and the
  trees of parts make up the tree of the whole.

  Strings are written byte by byte. Whatever byte is escaped, reading gives a piece that stands
  for this byte again, so nothing has to be known about UTF-8 but that text survives it.
-/
import Mathlib.Data.List.Forall2
import ServiceRegistry.Json.Decode
import ServiceRegistry.Proofs.Text.Digits

namespace ServiceRegistry.Json

open Text (ascii decimalBytes isDigitByte utf8)

/-! ## Strings -/

/-- The piece that a byte of a string is read as. Controls without a short form are written by
    their number. -/
def writtenPiece (b : UInt8) : Piece :=
  if b < 0x20 ∧ b ∉ [ascii '\n', ascii '\r', ascii '\t', 0x08, 0x0c] then .unit b.toNat
  else .byte b

/-- What a string is read as. -/
def writtenString (text : String) : RawString := ⟨(utf8 text).map writtenPiece, .closed⟩

/-! The ways a string goes on. -/

theorem readString_quote (text : List UInt8) :
    readString (ascii '"' :: text) = (⟨[], .closed⟩, text) := by
  rw [readString.eq_def]
  simp only [if_true]

theorem readString_short {e b : UInt8} (he : escaped? e = some b) (hunit : e ≠ ascii 'u')
    (text : List UInt8) :
    readString (ascii '\\' :: e :: text) = RawString.cons (.byte b) (readString text) := by
  have hquote : ascii '\\' ≠ ascii '"' := by decide
  rw [readString.eq_def]
  simp only [if_neg hquote, if_true, if_neg hunit, he]

theorem readString_unit {p q r s : UInt8} {n : Nat} (h : hexValue? [p, q, r, s] = some n)
    (text : List UInt8) :
    readString (ascii '\\' :: ascii 'u' :: p :: q :: r :: s :: text)
      = RawString.cons (.unit n) (readString text) := by
  have hquote : ascii '\\' ≠ ascii '"' := by decide
  rw [readString.eq_def]
  simp only [if_neg hquote, if_true, h]

theorem readString_byte {b : UInt8} (hquote : b ≠ ascii '"') (hslash : b ≠ ascii '\\')
    (hcontrol : ¬ b < 0x20) (text : List UInt8) :
    readString (b :: text) = RawString.cons (.byte b) (readString text) := by
  rw [readString.eq_def]
  simp only [if_neg hquote, if_neg hslash, if_neg hcontrol]

theorem hexValue?_hexDigits : ∀ n < 32,
    hexValue? [ascii '0', ascii '0', hexDigit (n / 16), hexDigit (n % 16)] = some n := by
  decide

/-- A byte is written in a short form, by its number or as it is. -/
theorem escapedByte_cases (b : UInt8) :
    (∃ e, escaped? e = some b ∧ e ≠ ascii 'u' ∧ escapedByte b = [ascii '\\', e] ∧
      writtenPiece b = .byte b) ∨
    (hexValue? [ascii '0', ascii '0', hexDigit (b.toNat / 16), hexDigit (b.toNat % 16)]
        = some b.toNat ∧
      escapedByte b = [ascii '\\', ascii 'u', ascii '0', ascii '0', hexDigit (b.toNat / 16),
        hexDigit (b.toNat % 16)] ∧
      writtenPiece b = .unit b.toNat) ∨
    ((b ≠ ascii '"' ∧ b ≠ ascii '\\' ∧ ¬ b < 0x20) ∧ escapedByte b = [b] ∧
      writtenPiece b = .byte b) := by
  unfold escapedByte
  -- In the order in which the forms are tried.
  split
  case isTrue h => subst h; exact .inl ⟨_, by decide, by decide, rfl, by decide⟩
  split
  case isTrue h => subst h; exact .inl ⟨_, by decide, by decide, rfl, by decide⟩
  split
  case isTrue h => subst h; exact .inl ⟨_, by decide, by decide, rfl, by decide⟩
  split
  case isTrue h => subst h; exact .inl ⟨_, by decide, by decide, rfl, by decide⟩
  split
  case isTrue h => subst h; exact .inl ⟨_, by decide, by decide, rfl, by decide⟩
  split
  case isTrue h => subst h; exact .inl ⟨_, by decide, by decide, rfl, by decide⟩
  split
  case isTrue h => subst h; exact .inl ⟨_, by decide, by decide, rfl, by decide⟩
  rename_i hquote hslash hlf hcr htab hback hfeed
  split
  case isTrue hcontrol =>
    have hpiece : writtenPiece b = .unit b.toNat := by
      refine if_pos ⟨hcontrol, ?_⟩
      simp only [List.mem_cons, List.not_mem_nil, or_false, not_or]
      exact ⟨hlf, hcr, htab, hback, hfeed⟩
    exact .inr (.inl ⟨hexValue?_hexDigits _ (UInt8.lt_iff_toNat_lt.1 hcontrol), rfl, hpiece⟩)
  case isFalse hcontrol =>
    exact .inr (.inr ⟨⟨hquote, hslash, hcontrol⟩, rfl, if_neg fun h => hcontrol h.1⟩)

/-- However a byte is written, it is read as its piece. -/
theorem readString_escapedByte (b : UInt8) (text : List UInt8) :
    readString (escapedByte b ++ text) = RawString.cons (writtenPiece b) (readString text) := by
  rcases escapedByte_cases b with ⟨e, he, hunit, hbytes, hpiece⟩ | ⟨hvalue, hbytes, hpiece⟩ |
    ⟨⟨hquote, hslash, hcontrol⟩, hbytes, hpiece⟩
  · rw [hbytes, hpiece]
    exact readString_short he hunit text
  · rw [hbytes, hpiece]
    exact readString_unit hvalue text
  · rw [hbytes, hpiece]
    exact readString_byte hquote hslash hcontrol text

theorem readString_escaped (bytes text : List UInt8) :
    readString (bytes.flatMap escapedByte ++ ascii '"' :: text)
      = (⟨bytes.map writtenPiece, .closed⟩, text) := by
  induction bytes with
  | nil => exact readString_quote text
  | cons b bytes ih =>
    rw [List.flatMap_cons, List.append_assoc, readString_escapedByte, ih]
    rfl

theorem codePointBytes_of_control : ∀ n < 32, codePointBytes n = [UInt8.ofNat n] := by
  decide

theorem pieceBytes_written (ending : Ending) (bytes : List UInt8) :
    pieceBytes ending (bytes.map writtenPiece) = .ok bytes := by
  induction bytes with
  | nil => rfl
  | cons b bytes ih =>
    rw [List.map_cons]
    by_cases h : b < 0x20 ∧ b ∉ [ascii '\n', ascii '\r', ascii '\t', 0x08, 0x0c]
    · have hlt : b.toNat < 32 := UInt8.lt_iff_toNat_lt.1 h.1
      have hlow : isLowSurrogate b.toNat = false := by
        simp only [isLowSurrogate, Bool.and_eq_false_imp, decide_eq_true_eq,
          decide_eq_false_iff_not]
        omega
      have hhigh : isHighSurrogate b.toNat = false := by
        simp only [isHighSurrogate, Bool.and_eq_false_imp, decide_eq_true_eq,
          decide_eq_false_iff_not]
        omega
      rw [writtenPiece, if_pos h, pieceBytes.eq_def]
      simp only [hlow, hhigh, ih, codePointBytes_of_control _ hlt, UInt8.ofNat_toNat]
      rfl
    · rw [writtenPiece, if_neg h, pieceBytes, ih]
      rfl

theorem text_writtenString (text : String) : (writtenString text).text = .ok text := by
  unfold RawString.text writtenString
  simp only [pieceBytes_written, Text.ofUtf8?_utf8]

/-! ## Natural numbers -/

theorem decimalBytes_of_lt {n : Nat} (h : n < 10) : decimalBytes n = [ascii n.digitChar] := by
  rw [decimalBytes, Nat.toDigits_of_lt_base h, List.map_singleton]

theorem decimalBytes_of_le {n : Nat} (h : 10 ≤ n) :
    decimalBytes n = decimalBytes (n / 10) ++ [ascii (n % 10).digitChar] := by
  rw [decimalBytes, Nat.toDigits_eq_if (by decide), if_neg (Nat.not_lt.2 h), List.map_append,
    List.map_singleton]
  rfl

theorem isDigitByte_digitChar : ∀ n < 10, isDigitByte (ascii (Nat.digitChar n)) = true := by
  decide

theorem digit_digitChar : ∀ n < 10, Numeral.digit (ascii (Nat.digitChar n)) = n := by
  decide

theorem ascii_digitChar_eq_zero : ∀ n < 10, ascii (Nat.digitChar n) = ascii '0' → n = 0 := by
  decide

theorem isDigitByte_of_mem {n : Nat} {b : UInt8} (h : b ∈ decimalBytes n) :
    isDigitByte b = true := by
  obtain ⟨c, hc, rfl⟩ := List.mem_map.1 h
  obtain ⟨d, hd, rfl⟩ := Text.exists_digitChar_of_mem (by decide) n hc
  exact isDigitByte_digitChar d hd

theorem decimalBytes_ne_nil (n : Nat) : decimalBytes n ≠ [] := by
  rw [decimalBytes, ne_eq, List.map_eq_nil_iff]
  exact Nat.toDigits_ne_nil

theorem eq_zero_of_decimalBytes {n : Nat} {ds : List UInt8}
    (h : decimalBytes n = ascii '0' :: ds) : n = 0 := by
  obtain ⟨d, hd, hhead, hzero⟩ := Text.exists_head?_toDigits (by decide : 1 < 10) n
  have hfirst := congrArg List.head? h
  rw [decimalBytes, List.head?_map, hhead, Option.map_some, List.head?_cons,
    Option.some.injEq] at hfirst
  exact hzero (ascii_digitChar_eq_zero d hd hfirst)

theorem takeDigits_decimalBytes {n : Nat} (h : n < UInt64.size) (ds : List UInt8) :
    Numeral.takeDigits 0 (decimalBytes n ++ ds) = Numeral.takeDigits n ds := by
  induction n using Nat.strongRecOn generalizing ds with
  | ind n ih =>
    by_cases hn : n < 10
    · rw [decimalBytes_of_lt hn, List.singleton_append, Numeral.takeDigits, digit_digitChar n hn]
      simp only [Nat.zero_mul, Nat.zero_add, if_pos h]
    · have hlast : n % 10 < 10 := Nat.mod_lt n (by decide)
      have hvalue : n / 10 * 10 + n % 10 = n := by omega
      rw [decimalBytes_of_le (Nat.not_lt.1 hn), List.append_assoc,
        ih (n / 10) (by omega) (by omega), List.singleton_append, Numeral.takeDigits,
        digit_digitChar _ hlast, hvalue, if_pos h]

theorem numberFound_ofNat {n : Nat} (h : n < UInt64.size) :
    numberFound (.ofNat n) .complete = .ok (.integer n) := by
  have htake := takeDigits_decimalBytes h []
  rw [List.append_nil] at htake
  have hquantity : (Numeral.ofNat n).quantity? = some (.integer n) := by
    simp only [Numeral.quantity?, Numeral.ofNat, htake, Numeral.takeDigits, Option.isNone_none,
      Bool.false_eq_true, not_false_eq_true, and_self, if_true]
  rw [numberFound, hquantity]

/-! ## Trees -/

/-- What may follow a value: nothing, a comma or a closing bracket. -/
def Terminates (rest : List UInt8) : Prop :=
  ∀ b ∈ rest.head?, b ∈ [ascii ',', ascii ']', ascii '\x7d']

theorem terminates_nil : Terminates [] := nofun

theorem terminates_cons {b : UInt8} (h : b ∈ [ascii ',', ascii ']', ascii '\x7d'])
    (rest : List UInt8) : Terminates (b :: rest) := by
  rintro _ ⟨⟩
  exact h

/-- A value begins with a byte that no blank is and no array ends with. Its text is read as a
    tree, and what follows it is left. -/
structure Reads (j : Json) (raw : Raw) : Prop where
  begins : ∃ b bs, j.bytes = b :: bs ∧ isBlank b = false ∧ b ≠ ascii ']'
  reads : ∀ fuel rest, 2 * j.bytes.length ≤ fuel + 1 → Terminates rest →
    readValue (fuel + 1) (j.bytes ++ rest) = (raw, rest)

theorem skipBlanks_cons {b : UInt8} (h : isBlank b = false) (text : List UInt8) :
    skipBlanks (b :: text) = b :: text :=
  List.dropWhile_cons_of_neg (by rw [h]; exact Bool.false_ne_true)

theorem readValue_quote (fuel : Nat) (text : List UInt8) :
    readValue (fuel + 1) (ascii '"' :: text)
      = (.string (readString text).1, (readString text).2) := by
  rw [readValue.eq_def]
  dsimp only
  rw [skipBlanks_cons (by decide)]
  rfl

theorem ne_of_isDigitByte {b c : UInt8} (hb : isDigitByte b = true) (hc : isDigitByte c = false) :
    b ≠ c := by
  rintro rfl
  rw [hb] at hc
  cases hc

theorem isBlank_of_isDigitByte {b : UInt8} (h : isDigitByte b = true) : isBlank b = false := by
  simp only [isBlank, Bool.or_eq_false_iff, beq_eq_false_iff_ne]
  exact ⟨⟨⟨ne_of_isDigitByte h (by decide), ne_of_isDigitByte h (by decide)⟩,
    ne_of_isDigitByte h (by decide)⟩, ne_of_isDigitByte h (by decide)⟩

theorem readValue_digit {b : UInt8} (h : isDigitByte b = true) (fuel : Nat) (text : List UInt8) :
    readValue (fuel + 1) (b :: text) = readNumber false (b :: text) := by
  have hne := fun c hc => ne_of_isDigitByte (c := c) h hc
  rw [readValue.eq_def]
  dsimp only
  rw [skipBlanks_cons (isBlank_of_isDigitByte h)]
  dsimp only
  rw [if_neg (hne _ (by decide)), if_neg (hne _ (by decide)), if_neg (hne _ (by decide)),
    if_neg (hne _ (by decide)), if_neg (hne _ (by decide)), if_pos h]

section

variable {text rest : List UInt8} (fuel : Nat)

theorem readValue_emptyArray (h : skipBlanks text = ascii ']' :: rest) :
    readValue (fuel + 1) (ascii '[' :: text) = (.array [] .closed, rest) := by
  rw [readValue.eq_def]
  dsimp only
  rw [skipBlanks_cons (by decide)]
  dsimp only
  rw [h]
  rfl

theorem readValue_items {b : UInt8} (h : skipBlanks text = b :: rest) (hb : b ≠ ascii ']') :
    readValue (fuel + 1) (ascii '[' :: text)
      = (.array (readItems fuel text).1 (readItems fuel text).2.1, (readItems fuel text).2.2) := by
  rw [readValue.eq_def]
  dsimp only
  rw [skipBlanks_cons (by decide)]
  dsimp only
  rw [if_neg (by decide), if_neg (by decide), if_neg (by decide), if_neg (by decide),
    if_neg (by decide), if_neg (by decide), if_pos rfl, h]
  dsimp only
  rw [if_neg hb]

theorem readValue_emptyObject (h : skipBlanks text = ascii '\x7d' :: rest) :
    readValue (fuel + 1) (ascii '\x7b' :: text) = (.object [] .closed, rest) := by
  rw [readValue.eq_def]
  dsimp only
  rw [skipBlanks_cons (by decide)]
  dsimp only
  rw [h]
  rfl

theorem readValue_members (h : skipBlanks text = ascii '"' :: rest) :
    readValue (fuel + 1) (ascii '\x7b' :: text)
      = (.object (readMembers fuel rest).1 (readMembers fuel rest).2.1,
          (readMembers fuel rest).2.2) := by
  rw [readValue.eq_def]
  dsimp only
  rw [skipBlanks_cons (by decide)]
  dsimp only
  rw [h]
  rfl

end

/-! ## Strings and numbers as trees -/

theorem stringBytes_append (text : String) (rest : List UInt8) :
    stringBytes text ++ rest
      = ascii '"' :: ((utf8 text).flatMap escapedByte ++ ascii '"' :: rest) := by
  rw [stringBytes, List.append_assoc, List.cons_append, List.singleton_append]

theorem reads_string (text : String) : Reads (.string text) (.string (writtenString text)) where
  begins := ⟨_, _, rfl, by decide, by decide⟩
  reads := by
    intro fuel rest _ _
    rw [bytes, stringBytes_append, readValue_quote, readString_escaped]
    rfl

theorem spanDigits_decimalBytes (n : Nat) {rest : List UInt8} (h : Terminates rest) :
    spanDigits (decimalBytes n ++ rest) = (decimalBytes n, rest) := by
  have hdigits : ∀ b ∈ decimalBytes n, isDigitByte b = true := fun b => isDigitByte_of_mem
  unfold spanDigits
  rw [List.takeWhile_append_of_pos hdigits, List.dropWhile_append_of_pos hdigits]
  cases rest with
  | nil => rw [List.takeWhile_nil, List.dropWhile_nil, List.append_nil]
  | cons b rest =>
    have hb : isDigitByte b = false := by
      have hmem := h b rfl
      simp only [List.mem_cons, List.not_mem_nil, or_false] at hmem
      rcases hmem with rfl | rfl | rfl <;> decide
    rw [List.takeWhile_cons_of_neg (by rw [hb]; exact Bool.false_ne_true),
      List.dropWhile_cons_of_neg (by rw [hb]; exact Bool.false_ne_true), List.append_nil]

/-- A number ends where nothing can be a part of it. -/
theorem readFraction_of_terminates (x : Numeral) {rest : List UInt8} (h : Terminates rest) :
    readFraction x rest = (.number x .complete, rest) := by
  cases rest with
  | nil => rfl
  | cons b rest =>
    have hmem := h b rfl
    simp only [List.mem_cons, List.not_mem_nil, or_false] at hmem
    rcases hmem with rfl | rfl | rfl <;> rfl

theorem readNumber_decimalBytes (n : Nat) {rest : List UInt8} (h : Terminates rest) :
    readNumber false (decimalBytes n ++ rest) = (.number (.ofNat n) .complete, rest) := by
  unfold readNumber
  rw [spanDigits_decimalBytes n h]
  cases hdigits : decimalBytes n with
  | nil => exact absurd hdigits (decimalBytes_ne_nil n)
  | cons d ds =>
    have hzero : ¬ (d = ascii '0' ∧ ds ≠ []) := by
      rintro ⟨rfl, hds⟩
      rw [eq_zero_of_decimalBytes hdigits] at hdigits
      exact hds (List.cons.inj hdigits).2.symm
    dsimp only
    rw [if_neg hzero, readFraction_of_terminates _ h, Numeral.ofNat, hdigits]

theorem bytes_natural (n : Nat) : (natural n).bytes = decimalBytes n := by
  rw [natural, bytes]
  simp only [Numeral.bytes, Numeral.ofNat, Bool.false_eq_true, if_false, List.nil_append,
    List.append_nil]

theorem reads_natural (n : Nat) : Reads (.natural n) (.number (.ofNat n) .complete) := by
  cases hdigits : decimalBytes n with
  | nil => exact absurd hdigits (decimalBytes_ne_nil n)
  | cons d ds =>
    have hd : isDigitByte d = true := by
      refine isDigitByte_of_mem (n := n) ?_
      rw [hdigits]
      exact List.mem_cons_self
    refine ⟨⟨d, ds, by rw [bytes_natural, hdigits], isBlank_of_isDigitByte hd, ?_⟩, ?_⟩
    · rintro rfl
      cases hd
    · intro fuel rest _ hrest
      rw [bytes_natural, ← readNumber_decimalBytes n hrest, hdigits, List.cons_append,
        readValue_digit hd]

/-! ## Arrays -/

theorem readItems_last {fuel : Nat} {text left rest : List UInt8} {raw : Raw}
    (h : readValue fuel text = (raw, left)) (hleft : skipBlanks left = ascii ']' :: rest) :
    readItems (fuel + 1) text = ([raw], .closed, rest) := by
  rw [readItems, h]
  dsimp only
  rw [hleft]
  rfl

theorem readItems_more {fuel : Nat} {text left rest : List UInt8} {raw : Raw}
    (h : readValue fuel text = (raw, left)) (hleft : skipBlanks left = ascii ',' :: rest) :
    readItems (fuel + 1) text
      = (raw :: (readItems fuel rest).1, (readItems fuel rest).2) := by
  rw [readItems, h]
  dsimp only
  rw [hleft]
  rfl

theorem readItems_of_reads {xs : List Json} {raws : List Raw} (hxs : List.Forall₂ Reads xs raws)
    {x : Json} {raw : Raw} (hx : Reads x raw) {fuel : Nat} {rest : List UInt8}
    (hfuel : 2 * (x.bytes ++ itemsBytes xs).length ≤ fuel) :
    readItems (fuel + 1) (x.bytes ++ itemsBytes xs ++ rest) = (raw :: raws, .closed, rest) := by
  -- Along the items; what is left of the fuel is enough for each of them.
  induction hxs generalizing x raw fuel with
  | nil =>
    rw [itemsBytes, List.length_append, List.length_singleton] at hfuel
    obtain ⟨fuel, rfl⟩ : ∃ n, fuel = n + 1 := ⟨fuel - 1, by omega⟩
    have hread := hx.reads fuel (ascii ']' :: rest) (by omega) (terminates_cons (by decide) rest)
    rw [itemsBytes, List.append_assoc, List.singleton_append]
    exact readItems_last hread (skipBlanks_cons (by decide) rest)
  | @cons y yraw ys yraws hy hys ih =>
    rw [itemsBytes, List.length_append, List.cons_append, List.length_cons] at hfuel
    obtain ⟨fuel, rfl⟩ : ∃ n, fuel = n + 1 := ⟨fuel - 1, by omega⟩
    have hread := hx.reads fuel (ascii ',' :: (y.bytes ++ itemsBytes ys ++ rest)) (by omega)
      (terminates_cons (by decide) _)
    rw [itemsBytes, List.append_assoc, List.cons_append, List.cons_append]
    rw [readItems_more hread (skipBlanks_cons (by decide) _), ih hy (by omega)]

theorem reads_array {xs : List Json} {raws : List Raw} (h : List.Forall₂ Reads xs raws) :
    Reads (.array xs) (.array raws .closed) := by
  cases h with
  | nil =>
    exact ⟨⟨_, _, rfl, by decide, by decide⟩,
      fun fuel rest _ _ => readValue_emptyArray fuel (skipBlanks_cons (by decide) rest)⟩
  | @cons x raw xs raws hx hxs =>
    refine ⟨⟨_, _, rfl, by decide, by decide⟩, fun fuel rest hfuel hrest => ?_⟩
    obtain ⟨b, bs, hbytes, hblank, hb⟩ := hx.begins
    rw [bytes, List.cons_append, List.length_cons] at hfuel
    obtain ⟨fuel, rfl⟩ : ∃ n, fuel = n + 1 := ⟨fuel - 1, by omega⟩
    have hitems : readItems (fuel + 1) (x.bytes ++ itemsBytes xs ++ rest)
        = (raw :: raws, .closed, rest) := readItems_of_reads hxs hx (by omega)
    rw [hbytes, List.cons_append, List.cons_append] at hitems
    rw [bytes, hbytes, List.cons_append, List.cons_append, List.cons_append, List.cons_append,
      readValue_items _ (skipBlanks_cons hblank _) hb, hitems]

/-! ## Objects -/

/-- A member is read under its key. -/
def ReadsMember (m : String × Json) (p : RawString × Raw) : Prop :=
  p.1 = writtenString m.1 ∧ Reads m.2 p.2

/-- What is written of a member after its opening quote, and what follows. -/
def memberText (key : String) (value : Json) (rest : List UInt8) : List UInt8 :=
  (utf8 key).flatMap escapedByte ++ ascii '"' :: ascii ':' :: (value.bytes ++ rest)

theorem memberBytes_append (key : String) (value : Json) (rest : List UInt8) :
    memberBytes (key, value) ++ rest = ascii '"' :: memberText key value rest := by
  rw [memberBytes, List.append_assoc, List.cons_append, stringBytes_append, memberText]

theorem readString_memberText (key : String) (value : Json) (rest : List UInt8) :
    readString (memberText key value rest)
      = (writtenString key, ascii ':' :: (value.bytes ++ rest)) :=
  readString_escaped _ _

section

variable {fuel : Nat} {text after value left next rest : List UInt8} {key : RawString} {raw : Raw}
variable (hkey : readString text = (key, after)) (hcolon : skipBlanks after = ascii ':' :: value)
variable (hvalue : readValue fuel value = (raw, left))

include hkey hcolon hvalue

theorem readMembers_last (hleft : skipBlanks left = ascii '\x7d' :: rest) :
    readMembers (fuel + 1) text = ([(key, raw)], .closed, rest) := by
  rw [readMembers, hkey]
  dsimp only
  rw [hcolon]
  dsimp only
  rw [if_pos rfl, hvalue]
  dsimp only
  rw [hleft]
  rfl

theorem readMembers_more (hleft : skipBlanks left = ascii ',' :: next)
    (hnext : skipBlanks next = ascii '"' :: rest) :
    readMembers (fuel + 1) text
      = ((key, raw) :: (readMembers fuel rest).1, (readMembers fuel rest).2) := by
  rw [readMembers, hkey]
  dsimp only
  rw [hcolon]
  dsimp only
  rw [if_pos rfl, hvalue]
  dsimp only
  rw [hleft]
  dsimp only
  rw [if_neg (by decide), if_pos rfl, hnext]
  rfl

end

theorem readMembers_of_reads {ms : List (String × Json)} {ps : List (RawString × Raw)}
    (hms : List.Forall₂ ReadsMember ms ps) {key : String} {value : Json} {raw : Raw}
    (hvalue : Reads value raw) {fuel : Nat} {rest : List UInt8}
    (hfuel : 2 * (value.bytes ++ membersBytes ms).length ≤ fuel) :
    readMembers (fuel + 1) (memberText key value (membersBytes ms ++ rest))
      = ((writtenString key, raw) :: ps, .closed, rest) := by
  induction hms generalizing key value raw fuel with
  | nil =>
    rw [membersBytes, List.length_append, List.length_singleton] at hfuel
    obtain ⟨fuel, rfl⟩ : ∃ n, fuel = n + 1 := ⟨fuel - 1, by omega⟩
    have hread := hvalue.reads fuel (ascii '\x7d' :: rest) (by omega)
      (terminates_cons (by decide) rest)
    rw [membersBytes, List.singleton_append]
    exact readMembers_last (readString_memberText key value _) (skipBlanks_cons (by decide) _)
      hread (skipBlanks_cons (by decide) rest)
  | @cons m p ms ps hm hms ih =>
    obtain ⟨mkey, mvalue⟩ := m
    obtain ⟨pkey, praw⟩ := p
    obtain ⟨rfl, hmvalue⟩ : pkey = writtenString mkey ∧ Reads mvalue praw := hm
    have hmembers : membersBytes ((mkey, mvalue) :: ms) ++ rest
        = ascii ',' :: ascii '"' :: memberText mkey mvalue (membersBytes ms ++ rest) := by
      rw [membersBytes, List.append_assoc, List.cons_append, memberBytes_append]
    have hlength : (mvalue.bytes ++ membersBytes ms).length + 2
        ≤ (membersBytes ((mkey, mvalue) :: ms)).length := by
      rw [membersBytes, memberBytes, stringBytes]
      simp only [List.length_append, List.length_cons]
      omega
    rw [List.length_append] at hfuel
    obtain ⟨fuel, rfl⟩ : ∃ n, fuel = n + 1 := ⟨fuel - 1, by omega⟩
    have hread := hvalue.reads fuel
      (ascii ',' :: ascii '"' :: memberText mkey mvalue (membersBytes ms ++ rest)) (by omega)
      (terminates_cons (by decide) _)
    rw [hmembers, readMembers_more (readString_memberText key value _)
      (skipBlanks_cons (by decide) _) hread (skipBlanks_cons (by decide) _)
      (skipBlanks_cons (by decide) _), ih hmvalue (by omega)]

theorem reads_object {ms : List (String × Json)} {ps : List (RawString × Raw)}
    (h : List.Forall₂ ReadsMember ms ps) : Reads (.object ms) (.object ps .closed) := by
  cases h with
  | nil =>
    exact ⟨⟨_, _, rfl, by decide, by decide⟩,
      fun fuel rest _ _ => readValue_emptyObject fuel (skipBlanks_cons (by decide) rest)⟩
  | @cons m p ms ps hm hms =>
    obtain ⟨key, value⟩ := m
    obtain ⟨pkey, raw⟩ := p
    obtain ⟨rfl, hvalue⟩ : pkey = writtenString key ∧ Reads value raw := hm
    refine ⟨⟨_, _, rfl, by decide, by decide⟩, fun fuel rest hfuel hrest => ?_⟩
    have hlength : (value.bytes ++ membersBytes ms).length + 1
        ≤ (bytes (.object ((key, value) :: ms))).length := by
      rw [bytes, memberBytes, stringBytes]
      simp only [List.length_append, List.length_cons]
      omega
    obtain ⟨fuel, rfl⟩ : ∃ n, fuel = n + 1 := ⟨fuel - 1, by omega⟩
    rw [bytes, List.append_assoc, List.cons_append, memberBytes_append,
      readValue_members _ (skipBlanks_cons (by decide) _),
      readMembers_of_reads hms hvalue (by omega)]

/-! ## Whole texts -/

/-- Compact text is read to its end. -/
theorem Reads.read {j : Json} {raw : Raw} (h : Reads j raw) : Raw.read j.bytes = (raw, []) := by
  have hread := h.reads (2 * j.bytes.length + 1) [] (by omega) terminates_nil
  rwa [List.append_nil] at hread

end ServiceRegistry.Json
