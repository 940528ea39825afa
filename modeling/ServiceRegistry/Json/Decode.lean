/-
  ServiceRegistry.Json.Decode

  Strings, integers, lists, optional values and choices from the tree of a text. The tree
  is walked from left to right and the first problem is the one reported.
-/
import ServiceRegistry.Json.Fault

namespace ServiceRegistry.Json

/-! ## Strings -/

/-- The bytes of a code point, as UTF-8 has them. -/
def codePointBytes (n : Nat) : List UInt8 := Text.utf8 (String.singleton (Char.ofNat n))

/-- A code unit that begins a pair. -/
def isHighSurrogate (n : Nat) : Bool := 0xD800 ≤ n && n ≤ 0xDBFF

/-- A code unit that ends a pair. -/
def isLowSurrogate (n : Nat) : Bool := 0xDC00 ≤ n && n ≤ 0xDFFF

/-- The code point of a pair. -/
def pairValue (high low : Nat) : Nat := (high - 0xD800) * 0x400 + (low - 0xDC00) + 0x10000

/-- The fault of a string that ends after the first half of a pair. -/
def Ending.afterHalf : Ending → Broken
  | closed => .malformed
  | broken how | dangling how => how

/-- The bytes of pieces; code units must form characters. -/
def pieceBytes (ending : Ending) : List Piece → Except Broken (List UInt8)
  | [] => .ok []
  | .byte b :: ps => (pieceBytes ending ps).map (b :: ·)
  | .unit n :: ps =>
    if isLowSurrogate n then .error .malformed
    else if isHighSurrogate n then
      match ps with
      | .unit m :: ps =>
        if isLowSurrogate m then (pieceBytes ending ps).map (codePointBytes (pairValue n m) ++ ·)
        else .error .malformed
      | [] => .error ending.afterHalf
      | .byte _ :: _ => .error .malformed
    else (pieceBytes ending ps).map (codePointBytes n ++ ·)

/-- The text of a string. -/
def RawString.text (s : RawString) : Except Broken String :=
  match pieceBytes s.ending s.pieces with
  | .error how => .error how
  | .ok bytes =>
    match s.ending with
    | .closed =>
      match Text.ofUtf8? bytes with
      | some text => .ok text
      | none => .error .malformed
    | .broken how | .dangling how => .error how

/-! ## What stands there -/

/-- The meaning of a written number. -/
def numberFound (x : Numeral) : NumberEnding → Except Broken Quantity
  | .complete =>
    match x.quantity? with
    | some q => .ok q
    | none => .error .malformed
  | .stray => .error .malformed
  | .cut => .error .truncated

/-- What the tree shows where something else is expected, or what is wrong with its text.
Of lists and objects only the beginning counts. -/
def Raw.found : Raw → Except Broken Found
  | null => .ok .null
  | bool b => .ok (.bool b)
  | number x ending => (numberFound x ending).map .quantity
  | string s => s.text.map .string
  | array _ _ => .ok .sequence
  | object _ _ => .ok .map
  | keyless => .ok .map
  | absent => .error .truncated
  | garbled => .error .malformed
  | misspelt how => .error how

/-- The fault of a tree that is not what is expected. -/
def Raw.unexpected (raw : Raw) (expected : String) : Fault :=
  match raw.found with
  | .ok found => .here (.wrongType found expected)
  | .error how => .broken how

/-! ## Members that nobody asks for -/

/-- What is wrong with the shape of a string. -/
def RawString.shapeFault? (s : RawString) : Option Broken :=
  match s.ending with
  | .closed => none
  | .broken how | .dangling how => some how

mutual

/-- What is wrong with the shape of a tree. -/
def Raw.shapeFault? : Raw → Option Broken
  | .null | .bool _ => none
  | .number _ .complete => none
  | .number _ _ => some .malformed
  | .string s => s.shapeFault?
  | .array items ending => itemsFault? ending items
  | .object members ending => membersFault? ending members
  | .keyless => some .malformed
  | .absent => some .truncated
  | .garbled => some .malformed
  | .misspelt how => some how

/-- The first fault of the items of an array, or that of its ending. -/
def itemsFault? (ending : Ending) : List Raw → Option Broken
  | [] => match ending with
    | .closed => none
    | .broken how | .dangling how => some how
  | x :: xs => (Raw.shapeFault? x).or (itemsFault? ending xs)

/-- The first fault of a member. -/
def memberFault? : RawString × Raw → Option Broken
  | (key, value) => key.shapeFault?.or (Raw.shapeFault? value)

/-- The first fault of the members of an object, or that of its ending. -/
def membersFault? (ending : Ending) : List (RawString × Raw) → Option Broken
  | [] => match ending with
    | .closed => none
    | .broken how | .dangling how => some how
  | m :: ms => (memberFault? m).or (membersFault? ending ms)

end

/-- The fault of an ending, if it is one. -/
def Ending.check : Ending → Except Fault Unit
  | closed => .ok ()
  | broken how | dangling how => .error (.broken how)

namespace Decoder

/-- Accepts anything of the right shape. -/
def anything : Decoder Unit := fun raw =>
  match raw.shapeFault? with
  | none => .ok ()
  | some how => .error (.broken how)

/-! ## Plain values -/

/-- Reads a string. -/
def string : Decoder String
  | .string s => s.text.mapError .broken
  | raw => .error (raw.unexpected "a string")

/-- Reads a natural number below a bound. -/
def natural (bound : Nat) (expected : String) : Decoder Nat
  | .number x ending =>
    match numberFound x ending with
    | .error how => .error (.broken how)
    | .ok (.integer n) =>
      if 0 ≤ n ∧ n < bound then .ok n.toNat else .error (.here (.outOfRange n expected))
    | .ok q => .error (.here (.wrongType (.quantity q) expected))
  | raw => .error (raw.unexpected expected)

/-- Reads a number of 16 bits. -/
def uint16 : Decoder UInt16 := fun raw => (natural UInt16.size "u16" raw).map UInt16.ofNat

/-- Reads a number of 64 bits. -/
def uint64 : Decoder UInt64 := fun raw => (natural UInt64.size "u64" raw).map UInt64.ofNat

/-- Reads a number that counts in memory. -/
def size : Decoder UInt64 := fun raw => (natural UInt64.size "usize" raw).map UInt64.ofNat

/-- Reads the value that says nothing. -/
def unit : Decoder Unit
  | .null => .ok ()
  | raw => .error (raw.unexpected "unit")

/-- Reads a value that may be null. -/
def optional {α : Type} (d : Decoder α) : Decoder (Option α)
  | .null => .ok none
  | raw => (d raw).map some

/-! ## Lists -/

/-- Reads the items of an array from the one with the given index on. -/
def items {α : Type} (d : Decoder α) (ending : Ending) : Nat → List Raw → Except Fault (List α)
  | _, [] => ending.check.map fun _ => []
  | i, x :: xs => do
    let a ← d.at (.item i) x
    let as ← items d ending (i + 1) xs
    pure (a :: as)

/-- Reads a list. -/
def list {α : Type} (d : Decoder α) : Decoder (List α)
  | .array xs ending => items d ending 0 xs
  | raw => .error (raw.unexpected "a sequence")

end Decoder

/-! ## Choices -/

/-- One of the values a choice may have: a bare name, or a name with a value. -/
inductive Variant (α : Type)
  | bare (value : α)
  | holding (decode : Decoder α)

namespace Decoder

/-- The variant with a name. -/
def variantNamed {α : Type} (variants : List (String × Variant α)) (name : String) :
    Except Fault (Variant α) :=
  match variants.lookup name with
  | some v => .ok v
  | none => .error (.here (.unknownVariant name (variants.map (·.1))))

/-- Reads what follows the name of a variant in an object. -/
def variantValue {α : Type} (name : String) : Variant α → Decoder α
  | .bare a => fun raw => (unit.at (.member name) raw).map fun _ => a
  | .holding d => d.at (.member name)

/-- Reads a choice: the name of a bare variant, or an object with one member. -/
def choice {α : Type} (variants : List (String × Variant α)) : Decoder α
  | .string s => do
    let name ← s.text.mapError Fault.broken
    match ← variantNamed variants name with
    | .bare a => pure a
    | .holding _ => .error (.here (.wrongType .bareVariant "newtype variant"))
  | .object ((key, value) :: more) ending => do
    let name ← key.text.mapError Fault.broken
    let a ← variantValue name (← variantNamed variants name) value
    match more, ending with
    | [], .closed => pure a
    | [], .broken how => .error (.broken how)
    | _, _ => .error .malformed
  | .object [] (.broken how) => .error (.broken how)
  | .absent => .error .truncated
  | _ => .error .malformed

end Decoder

end ServiceRegistry.Json
