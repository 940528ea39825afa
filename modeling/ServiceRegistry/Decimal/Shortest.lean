/-
  ServiceRegistry.Decimal.Shortest

  The fewest decimal digits that read back as the same binary number, and how the
  registry's messages write them: positional from 0.00001 to below 10 ^ 16, otherwise with
  an exponent, which always has a sign.
-/
import ServiceRegistry.Decimal.Binary64

namespace ServiceRegistry.Decimal

/-! ## Digits -/

/-- The decimal `digits * 10 ^ exponent`. -/
structure Digits where
  digits : Nat
  exponent : Int
  deriving DecidableEq, Repr

/-- Numerators, over one denominator, of a number and of the two ends of the interval
that rounds to it. The ends belong to the interval when the significand is even. -/
structure Interval where
  low : Nat
  value : Nat
  high : Nat
  denominator : Nat
  closed : Bool
  deriving DecidableEq, Repr

/-- The interval that rounds to a number. Below a power of two it is half as wide. -/
def Binary64.interval (x : Binary64) : Interval :=
  let below :=
    if x.significand = Binary64.leastNormal ∧ x.exponent > Binary64.minExponent then 1 else 2
  let unit := Nat.pow 2 x.exponent.toNat
  ⟨(4 * x.significand - below) * unit, 4 * x.significand * unit,
    (4 * x.significand + 2) * unit, 4 * x.denominator, x.significand % 2 = 0⟩

/-- A decimal lies in an interval. -/
def Interval.holds (i : Interval) (d : Digits) : Bool :=
  let scaled := d.digits * Nat.pow 10 d.exponent.toNat * i.denominator
  let scale := Nat.pow 10 (-d.exponent).toNat
  if i.closed then i.low * scale ≤ scaled && scaled ≤ i.high * scale
  else i.low * scale < scaled && scaled < i.high * scale

/-- The decimal of an interval on the grid of multiples of `10 ^ e`: one of the two
neighbours of the value, the nearer one if both lie in it, and from the middle the even. -/
def Interval.onGrid? (i : Interval) (e : Int) : Option Digits :=
  let num := i.value * Nat.pow 10 (-e).toNat
  let den := i.denominator * Nat.pow 10 e.toNat
  let below : Digits := ⟨num / den, e⟩
  let above : Digits := ⟨num / den + 1, e⟩
  match i.holds below, i.holds above with
  | true, true => some ⟨Binary64.nearest num den, e⟩
  | true, false => some below
  | false, true => some above
  | false, false => none

/-- The exponent of the first digit of a quotient that is not zero. -/
def leadingExponent (num den : Nat) : Int :=
  if num ≥ den then Int.ofNat ((Nat.toDigits 10 (num / den)).length) - 1
  else
    let zeros := (Nat.toDigits 10 (den / num)).length
    if num * Nat.pow 10 zeros ≥ den * 10 then 1 - Int.ofNat zeros else - Int.ofNat zeros

/-- Removes zeros at the end of the digits; `fuel` bounds their number. -/
def Digits.trim : Nat → Digits → Digits
  | 0, d => d
  | fuel + 1, d =>
    if d.digits ≠ 0 ∧ d.digits % 10 = 0 then trim fuel ⟨d.digits / 10, d.exponent + 1⟩ else d

/-- The first decimal found when the number of digits grows from `n + 1`. -/
def Interval.search (i : Interval) (lead : Int) : List Nat → Digits
  | [] => ⟨0, 0⟩
  | n :: ns =>
    match i.onGrid? (lead - Int.ofNat n) with
    | some d => d
    | none => search i lead ns

/-- The fewest digits that read back as the number; seventeen always suffice. -/
def Binary64.shortest (x : Binary64) : Digits :=
  if x.significand = 0 then ⟨0, 0⟩
  else
    let i := x.interval
    (i.search (leadingExponent i.value i.denominator) (List.range 18)).trim 20

/-! ## Text -/

/-- Writes digits positionally, with at least one digit on each side of the point. -/
def Digits.positional (d : Digits) : List Char :=
  let ds := Nat.toDigits 10 d.digits
  if d.exponent ≥ 0 then ds ++ List.replicate d.exponent.toNat '0' ++ ['.', '0']
  else
    let places := (-d.exponent).toNat
    let ds := List.replicate (places + 1 - ds.length) '0' ++ ds
    ds.take (ds.length - places) ++ '.' :: ds.drop (ds.length - places)

/-- Writes one digit, the others after a point, and the exponent. -/
def Digits.scientific (d : Digits) (lead : Int) : List Char :=
  let ds := Nat.toDigits 10 d.digits
  let fraction := match ds.drop 1 with
    | [] => []
    | rest => '.' :: rest
  ds.take 1 ++ fraction ++ 'e' :: (if lead < 0 then '-' else '+') :: Nat.toDigits 10 lead.natAbs

/-- The text of a number in messages. -/
def Digits.text (d : Digits) : List Char :=
  let lead : Int := Int.ofNat (Nat.toDigits 10 d.digits).length - 1 + d.exponent
  if -5 ≤ lead ∧ lead < 16 then d.positional else d.scientific lead

end ServiceRegistry.Decimal
