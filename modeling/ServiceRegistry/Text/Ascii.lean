/-
  ServiceRegistry.Text.Ascii

  Letter case and digits of ASCII text: equality that ignores letter case, the values of
  digits in bases up to thirty-six, and the unsigned integers written with them.
-/

namespace ServiceRegistry.Text

/-! ## Letter case -/

/-- Two texts agree up to the case of their ASCII letters. -/
def sameIgnoringCase (a b : String) : Bool :=
  a.toList.map Char.toLower == b.toList.map Char.toLower

/-! ## Digits -/

/-- The value of a digit; letters of either case continue after nine. -/
def digitValue? (c : Char) : Option Nat :=
  if c.isDigit then some (c.toNat - '0'.toNat)
  else if 'a' ≤ c ∧ c ≤ 'z' then some (c.toNat - 'a'.toNat + 10)
  else if 'A' ≤ c ∧ c ≤ 'Z' then some (c.toNat - 'A'.toNat + 10)
  else none

/-- The value of a digit of the given base. -/
def digitIn? (base : Nat) (c : Char) : Option Nat :=
  (digitValue? c).filter (· < base)

/-- Appends one digit to a number read so far. -/
def appendDigit? (base : Nat) (n : Nat) (c : Char) : Option Nat :=
  (digitIn? base c).map fun d => n * base + d

/-- Reads digits of the given base, at least one and nothing else. -/
def readNatural? (base : Nat) : List Char → Option Nat
  | [] => none
  | cs => cs.foldlM (appendDigit? base) 0

/-- Reads a decimal below `bound`; one plus sign and leading zeros are allowed. -/
def readUnsigned? (bound : Nat) (text : String) : Option Nat :=
  let digits := match text.toList with
    | '+' :: cs => cs
    | cs => cs
  (readNatural? 10 digits).filter (· < bound)

/-- Reads a decimal below `bound`; a zero may also have a minus sign. -/
def readSigned? (bound : Nat) (text : String) : Option Nat :=
  match text.toList with
  | '-' :: cs => (readNatural? 10 cs).filter (· = 0)
  | _ => readUnsigned? bound text

/-! ## Bytes -/

/-- The byte of an ASCII character. -/
def ascii (c : Char) : UInt8 := c.toUInt8

/-- The value of a byte as a digit of the given base. -/
def byteDigitIn? (base : Nat) (b : UInt8) : Option Nat := digitIn? base (Char.ofNat b.toNat)

/-- The byte is a decimal digit. -/
def isDigitByte (b : UInt8) : Bool := ascii '0' ≤ b && b ≤ ascii '9'

/-- The decimal digits of a number as bytes. -/
def decimalBytes (n : Nat) : List UInt8 := (Nat.toDigits 10 n).map ascii

end ServiceRegistry.Text
