/-
  ServiceRegistry.Json.Numeral

  Numbers as they are written, and what they mean. A number without fraction and exponent
  is an integer if it fits in 64 bits and is not a negative zero; any other is a binary
  number. The significand of a binary number takes digits as long as it stays below
  2 ^ 64, then it is scaled by a power of ten with one rounding for each step.
-/
import ServiceRegistry.Decimal.Shortest
import ServiceRegistry.Text.Ascii

namespace ServiceRegistry.Json

open Decimal (Binary64)

/-- A written number, its digits as bytes. -/
structure Numeral where
  negative : Bool := false
  whole : List UInt8
  fraction : Option (List UInt8) := none
  /-- A minus sign and the digits. -/
  exponent : Option (Bool × List UInt8) := none
  deriving DecidableEq, Repr

/-- What a number means. -/
inductive Quantity
  | integer (value : Int)
  | float (negative : Bool) (magnitude : Binary64)
  deriving DecidableEq, Repr

namespace Numeral

/-- The numeral of a natural number. -/
def ofNat (n : Nat) : Numeral := { whole := Text.decimalBytes n }

/-- The bytes of a numeral. -/
def bytes (x : Numeral) : List UInt8 :=
  (if x.negative then [Text.ascii '-'] else []) ++ x.whole
    ++ (match x.fraction with
      | some ds => Text.ascii '.' :: ds
      | none => [])
    ++ match x.exponent with
      | some (negative, ds) =>
        Text.ascii 'e' :: (if negative then Text.ascii '-' :: ds else ds)
      | none => []

/-! ## Significand -/

/-- The value of a digit byte. -/
def digit (b : UInt8) : Nat := (b - Text.ascii '0').toNat

/-- Takes digits as long as the significand stays below 2 ^ 64; gives the digits left. -/
def takeDigits : Nat → List UInt8 → Nat × List UInt8
  | s, [] => (s, [])
  | s, d :: ds =>
    if s * 10 + digit d < UInt64.size then takeDigits (s * 10 + digit d) ds else (s, d :: ds)

/-! ## Scaling -/

/-- The greatest power of ten among the numbers. -/
def greatestPower : Nat := 308

/-- Multiplies with one rounding. -/
def multiply? (x y : Binary64) : Option Binary64 :=
  Binary64.ofRatio? (x.numerator * y.numerator) (x.denominator * y.denominator)

/-- Divides with one rounding. -/
def divide? (x y : Binary64) : Option Binary64 :=
  Binary64.ofRatio? (x.numerator * y.denominator) (x.denominator * y.numerator)

/-- The number nearest to a power of ten. -/
def powerOfTen? (n : Nat) : Option Binary64 := Binary64.ofNat? (Nat.pow 10 n)

/-- Divides by a power of ten, in steps of the greatest; zero stays zero. -/
def scaleDown? : Nat → Binary64 → Nat → Option Binary64
  | 0, x, _ => some x
  | fuel + 1, x, n =>
    if x.significand = 0 then some x
    else if n ≤ greatestPower then (powerOfTen? n).bind (divide? x)
    else do scaleDown? fuel (← divide? x (← powerOfTen? greatestPower)) (n - greatestPower)

/-- The significand times a power of ten; `none` when it is too large. -/
def scaled? (significand : Nat) (e : Int) : Option Binary64 := do
  let x ← Binary64.ofNat? significand
  if e < 0 then scaleDown? (e.natAbs + 1) x e.natAbs
  else if e.toNat ≤ greatestPower then multiply? x (← powerOfTen? e.toNat)
  else if significand = 0 then some x
  else none

/-! ## Meaning -/

/-- The bound of exponents. -/
def exponentBound : Nat := Nat.pow 2 31

/-- The value of a written exponent; `none` when it exceeds 31 bits. -/
def exponentValue? (negative : Bool) (digits : List UInt8) : Option Int :=
  let n := digits.foldl (fun n d => if n < exponentBound then n * 10 + digit d else n) 0
  if n < exponentBound then some (if negative then - Int.ofNat n else Int.ofNat n) else none

/-- The magnitude of a number that is not a plain integer. -/
def magnitude? (significand : Nat) (left : List UInt8) (x : Numeral) : Option Binary64 :=
  let fraction := x.fraction.getD []
  let (s, dropped) := takeDigits significand fraction
  let start : Int := Int.ofNat left.length - Int.ofNat (fraction.length - dropped.length)
  match x.exponent with
  | none => scaled? s start
  | some (negative, digits) =>
    match exponentValue? negative digits with
    | some e => scaled? s (start + e)
    | none => if s ≠ 0 ∧ ¬ negative then none else some Binary64.zero

/-- What a number means; `none` when it is too large. -/
def quantity? (x : Numeral) : Option Quantity :=
  let (s, left) := takeDigits 0 x.whole
  if x.fraction.isNone ∧ x.exponent.isNone ∧ left = [] then
    if ¬ x.negative then some (.integer s)
    else if 0 < s ∧ s ≤ Nat.pow 2 63 then some (.integer (- Int.ofNat s))
    else (Binary64.ofNat? s).map (.float true)
  else (magnitude? s left x).map (.float x.negative)

end Numeral

end ServiceRegistry.Json
