/-
  ServiceRegistry.Decimal.Binary64

  The non-negative finite binary numbers with 53 significant bits and exponents from
  -1074 to 971, and the rounding of exact quotients to them: to the nearest, and from
  the middle to the even one. A quotient too large for them has no rounding.
-/

namespace ServiceRegistry.Decimal

/-- The number `significand * 2 ^ exponent`. -/
structure Binary64 where
  significand : Nat
  exponent : Int
  deriving DecidableEq, Repr

namespace Binary64

/-- The number zero. -/
def zero : Binary64 := ⟨0, -1074⟩

/-- The least significand with all of the 53 bits. -/
def leastNormal : Nat := Nat.pow 2 52

/-- The least exponent of a number. -/
def minExponent : Int := -1074

/-- The greatest exponent of a number. -/
def maxExponent : Int := 971

/-- Numerator of the exact value. -/
def numerator (x : Binary64) : Nat := x.significand * Nat.pow 2 x.exponent.toNat

/-- Denominator of the exact value. -/
def denominator (x : Binary64) : Nat := Nat.pow 2 (-x.exponent).toNat

/-- The integer nearest to a quotient; from the middle, the even one. -/
def nearest (num den : Nat) : Nat :=
  let q := num / den
  let r := num % den
  if 2 * r > den ∨ (2 * r = den ∧ q % 2 = 1) then q + 1 else q

/-- A quotient in units of `2 ^ e`, as numerator and denominator. -/
def inUnits (num den : Nat) (e : Int) : Nat × Nat :=
  (num * Nat.pow 2 (-e).toNat, den * Nat.pow 2 e.toNat)

/-- The exponent that gives a quotient 53 significant bits, but no less than the least. -/
def exponentOf (num den : Nat) : Int :=
  let low : Int := Int.ofNat num.log2 - Int.ofNat den.log2 - 53
  let (n, d) := inUnits num den low
  max minExponent (if n ≥ d * (2 * leastNormal) then low + 1 else low)

/-- The number nearest to a quotient; `none` when it is too large. -/
def ofRatio? (num den : Nat) : Option Binary64 :=
  if num = 0 then some zero
  else
    let e := exponentOf num den
    let (n, d) := inUnits num den e
    let m := nearest n d
    let x : Binary64 := if m = 2 * leastNormal then ⟨leastNormal, e + 1⟩ else ⟨m, e⟩
    if x.exponent ≤ maxExponent then some x else none

/-- The number nearest to a natural number. -/
def ofNat? (n : Nat) : Option Binary64 := ofRatio? n 1

/-- The rounded product with a natural number. -/
def scaleUp? (x : Binary64) (n : Nat) : Option Binary64 :=
  ofRatio? (x.numerator * n) x.denominator

/-- The rounded quotient by a natural number. -/
def scaleDown? (x : Binary64) (n : Nat) : Option Binary64 :=
  ofRatio? x.numerator (x.denominator * n)

/-- The decimal `digits * 10 ^ e` has a finite rounding. Exponents far outside the range
of the numbers are decided by the count of digits alone. -/
def isFiniteDecimal (digits : Nat) (e : Int) : Bool :=
  let size : Int := Int.ofNat (Nat.toDigits 10 digits).length + e
  if digits = 0 ∨ size < -400 then true
  else if size > 400 then false
  else (ofRatio? (digits * Nat.pow 10 e.toNat) (Nat.pow 10 (-e).toNat)).isSome

end Binary64

end ServiceRegistry.Decimal
