/-
  ServiceRegistry.Proofs.Text.Digits

  Numbers written with digits and read back. The digits of a number are digits of its base and
  nothing else (`exists_digitChar_of_mem`), only zero begins with the digit zero
  (`exists_head?_toDigits`), and in bases up to sixteen reading them gives the number
  (`readNatural?_toDigits`).
-/
import ServiceRegistry.Text.Ascii

namespace ServiceRegistry.Text

variable {base : Nat}

/-! ## Single digits -/

theorem digitValue?_digitChar : ∀ d < 16, digitValue? (Nat.digitChar d) = some d := by
  decide

theorem digitIn?_digitChar (hbase : base ≤ 16) {d : Nat} (h : d < base) :
    digitIn? base (Nat.digitChar d) = some d := by
  rw [digitIn?, digitValue?_digitChar d (Nat.lt_of_lt_of_le h hbase), Option.filter_some,
    if_pos (decide_eq_true h)]

theorem digitChar_eq_zero : ∀ d < 16, Nat.digitChar d = '0' → d = 0 := by
  decide

/-! ## The digits of a number -/

section

variable (hbase : 1 < base) (n : Nat)

include hbase

theorem exists_digitChar_of_mem {c : Char} (h : c ∈ Nat.toDigits base n) :
    ∃ d < base, c = Nat.digitChar d := by
  -- Along the digits from the last one on.
  induction n using Nat.strongRecOn with
  | ind n ih =>
    by_cases hn : n < base
    · rw [Nat.toDigits_of_lt_base hn, List.mem_singleton] at h
      exact ⟨n, hn, h⟩
    · have hle : base ≤ n := Nat.not_lt.1 hn
      rw [Nat.toDigits_of_base_le hbase hle, List.mem_append, List.mem_singleton] at h
      rcases h with h | h
      · exact ih (n / base) (Nat.div_lt_self (by omega) hbase) h
      · exact ⟨n % base, Nat.mod_lt n (by omega), h⟩

/-- Only zero is written with a zero at its beginning. -/
theorem exists_head?_toDigits :
    ∃ d < base, (Nat.toDigits base n).head? = some (Nat.digitChar d) ∧ (d = 0 → n = 0) := by
  induction n using Nat.strongRecOn with
  | ind n ih =>
    by_cases hn : n < base
    · refine ⟨n, hn, ?_, id⟩
      rw [Nat.toDigits_of_lt_base hn, List.head?_cons]
    · have hle : base ≤ n := Nat.not_lt.1 hn
      obtain ⟨d, hd, hhead, hzero⟩ := ih (n / base) (Nat.div_lt_self (by omega) hbase)
      refine ⟨d, hd, ?_, fun heq => ?_⟩
      · rw [Nat.toDigits_of_base_le hbase hle, List.head?_append, hhead, Option.some_or]
      · exact absurd ((Nat.div_eq_zero_iff_lt (by omega)).1 (hzero heq)) hn

end

/-! ## Reading them back -/

variable (hbase : 1 < base) (hsixteen : base ≤ 16)

include hbase hsixteen

theorem isSome_digitIn?_of_mem {n : Nat} {c : Char} (h : c ∈ Nat.toDigits base n) :
    (digitIn? base c).isSome = true := by
  obtain ⟨d, hd, rfl⟩ := exists_digitChar_of_mem hbase n h
  rw [digitIn?_digitChar hsixteen hd, Option.isSome_some]

theorem eq_zero_of_head?_toDigits {n : Nat} (h : (Nat.toDigits base n).head? = some '0') :
    n = 0 := by
  obtain ⟨d, hd, hhead, hzero⟩ := exists_head?_toDigits hbase n
  rw [hhead, Option.some.injEq] at h
  exact hzero (digitChar_eq_zero d (Nat.lt_of_lt_of_le hd hsixteen) h)

omit hbase hsixteen in
/-- One more digit at the end. -/
theorem readNatural?_snoc {ds : List Char} (hds : ds ≠ []) (c : Char) :
    readNatural? base (ds ++ [c]) = (readNatural? base ds).bind (appendDigit? base · c) := by
  obtain ⟨d, ds, rfl⟩ := List.exists_cons_of_ne_nil hds
  simp only [readNatural?, List.cons_append, List.foldlM_cons, List.foldlM_append,
    List.foldlM_nil, bind_pure]
  cases appendDigit? base 0 d <;> rfl

theorem readNatural?_toDigits (n : Nat) : readNatural? base (Nat.toDigits base n) = some n := by
  induction n using Nat.strongRecOn with
  | ind n ih =>
    by_cases hn : n < base
    · have hdigit : appendDigit? base 0 n.digitChar = some n := by
        rw [appendDigit?, digitIn?_digitChar hsixteen hn, Option.map_some, Nat.zero_mul,
          Nat.zero_add]
      rw [Nat.toDigits_of_lt_base hn]
      simp only [readNatural?, List.foldlM_cons, List.foldlM_nil, bind_pure, hdigit]
    · have hle : base ≤ n := Nat.not_lt.1 hn
      have hlast : n % base < base := Nat.mod_lt n (by omega)
      rw [Nat.toDigits_of_base_le hbase hle, readNatural?_snoc Nat.toDigits_ne_nil,
        ih (n / base) (Nat.div_lt_self (by omega) hbase), Option.bind_some, appendDigit?,
        digitIn?_digitChar hsixteen hlast, Option.map_some, Nat.div_add_mod']

end ServiceRegistry.Text
