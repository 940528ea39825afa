/-
  ServiceRegistry.Proofs.Text.Base64Url

  Bytes survive base 64. Writing first splits three bytes into four values below 64 and then
  writes each as a digit; reading undoes the two one after the other. So what is to be shown
  of groups is arithmetic and no digit occurs in it (`ofValues?_sextets`).
-/
import ServiceRegistry.Text.Base64Url

namespace ServiceRegistry.Text.Base64Url

/-! ## Values -/

/-- The values of the digits that are written for bytes. -/
def sextets : List UInt8 → List Nat
  | [] => []
  | [a] => [a.toNat / 4, a.toNat % 4 * 16]
  | [a, b] => [a.toNat / 4, a.toNat % 4 * 16 + b.toNat / 16, b.toNat % 16 * 4]
  | a :: b :: c :: rest =>
    a.toNat / 4 :: (a.toNat % 4 * 16 + b.toNat / 16) :: (b.toNat % 16 * 4 + c.toNat / 64)
      :: c.toNat % 64 :: sextets rest

theorem encode_eq_map (bytes : List UInt8) : encode bytes = (sextets bytes).map digit := by
  fun_induction encode bytes with
  | case1 => rfl
  | case2 => rfl
  | case3 => rfl
  | case4 a b c rest ih =>
    rw [ih]
    rfl

theorem sextet_lt {bytes : List UInt8} : ∀ n ∈ sextets bytes, n < 64 := by
  fun_induction sextets bytes with
  | case1 => exact List.forall_mem_nil _
  | case2 a =>
    have ha := a.toNat_lt
    simp only [List.forall_mem_cons, List.not_mem_nil, false_implies, implies_true, and_true]
    omega
  | case3 a b =>
    have ha := a.toNat_lt
    have hb := b.toNat_lt
    simp only [List.forall_mem_cons, List.not_mem_nil, false_implies, implies_true, and_true]
    omega
  | case4 a b c rest ih =>
    have ha := a.toNat_lt
    have hb := b.toNat_lt
    have hc := c.toNat_lt
    refine List.forall_mem_cons.2 ⟨by omega, List.forall_mem_cons.2 ⟨by omega,
      List.forall_mem_cons.2 ⟨by omega, List.forall_mem_cons.2 ⟨by omega, ih⟩⟩⟩⟩

theorem ofNat_eq_of_eq_toNat {n : Nat} {a : UInt8} (h : n = a.toNat) : UInt8.ofNat n = a := by
  rw [h, UInt8.ofNat_toNat]

theorem ofValues?_sextets (bytes : List UInt8) : ofValues? (sextets bytes) = some bytes := by
  fun_induction sextets bytes with
  | case1 => rfl
  | case2 a =>
    have ha : UInt8.ofNat (a.toNat / 4 * 4 + a.toNat % 4 * 16 / 16) = a :=
      ofNat_eq_of_eq_toNat (by omega)
    rw [ofValues?, if_pos (by omega), ha]
  | case3 a b =>
    have hlt := b.toNat_lt
    have ha : UInt8.ofNat (a.toNat / 4 * 4 + (a.toNat % 4 * 16 + b.toNat / 16) / 16) = a :=
      ofNat_eq_of_eq_toNat (by omega)
    have hb : UInt8.ofNat ((a.toNat % 4 * 16 + b.toNat / 16) % 16 * 16
        + b.toNat % 16 * 4 / 4) = b := ofNat_eq_of_eq_toNat (by omega)
    rw [ofValues?, if_pos (by omega), ha, hb]
  | case4 a b c rest ih =>
    have hb' := b.toNat_lt
    have hc' := c.toNat_lt
    have ha : UInt8.ofNat (a.toNat / 4 * 4 + (a.toNat % 4 * 16 + b.toNat / 16) / 16) = a :=
      ofNat_eq_of_eq_toNat (by omega)
    have hb : UInt8.ofNat ((a.toNat % 4 * 16 + b.toNat / 16) % 16 * 16
        + (b.toNat % 16 * 4 + c.toNat / 64) / 4) = b := ofNat_eq_of_eq_toNat (by omega)
    have hc : UInt8.ofNat ((b.toNat % 16 * 4 + c.toNat / 64) % 4 * 64 + c.toNat % 64) = c :=
      ofNat_eq_of_eq_toNat (by omega)
    rw [ofValues?, ih, ha, hb, hc, Option.map_some]

/-! ## Digits -/

theorem mapM_value?_digit {ns : List Nat} (h : ∀ n ∈ ns, n < 64) :
    (ns.map digit).mapM value? = some ns := by
  induction ns with
  | nil => rfl
  | cons n ns ih =>
    obtain ⟨hn, hns⟩ := List.forall_mem_cons.1 h
    rw [List.map_cons, List.mapM_cons, value?_digit n hn, ih hns]
    rfl

/-- What is written for bytes is read as them. -/
theorem decode?_encode (bytes : List UInt8) : decode? (encode bytes) = some bytes := by
  rw [decode?, encode_eq_map, mapM_value?_digit sextet_lt, Option.bind_some, ofValues?_sextets]

/-- Digits are visible, and no dot is among them. -/
theorem digit_visible : ∀ n < 64, '!' ≤ digit n ∧ digit n ≤ '~' ∧ digit n ≠ '.' := by
  decide

theorem visible_of_mem_encode {bytes : List UInt8} {c : Char} (h : c ∈ encode bytes) :
    '!' ≤ c ∧ c ≤ '~' ∧ c ≠ '.' := by
  rw [encode_eq_map] at h
  obtain ⟨n, hn, rfl⟩ := List.mem_map.1 h
  exact digit_visible n (sextet_lt n hn)

end ServiceRegistry.Text.Base64Url
