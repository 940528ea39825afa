/-
  ServiceRegistry.Json.Whole

  Values that are read as a whole before anyone asks what they are. Every string in such a
  value must be text, every number in range, and lists and objects must not nest too
  deeply. A value that fails at its very end has been read all the same, and whoever can do
  without it goes on behind it; after any other failure the place to go on is lost.
-/
import ServiceRegistry.Json.Decode

namespace ServiceRegistry.Json

/-- How the reading of a whole value ends. -/
inductive Wholeness
  | sound
  /-- The fault shows at the end of the value. -/
  | spoilt
  /-- The fault shows before the end of the value. -/
  | stuck
  deriving DecidableEq, Repr

namespace Wholeness

/-- A value in a list or an object: a fault at its end is one before the end of the whole,
unless it comes last. -/
def andThen (first : Wholeness) (isLast : Bool) (rest : Wholeness) : Wholeness :=
  match first with
  | sound => rest
  | spoilt => if isLast then spoilt else stuck
  | stuck => stuck

end Wholeness

/-! ## Strings -/

/-- Whether the code units of a string form characters. The half of a pair fails at the end
of the string only if it is the last thing in it. -/
def pairing : List Piece → Wholeness
  | [] => .sound
  | .byte _ :: ps => pairing ps
  | .unit n :: ps =>
    if isLowSurrogate n then .stuck
    else if isHighSurrogate n then
      match ps with
      | .unit m :: ps => if isLowSurrogate m then pairing ps else .stuck
      | [] => .spoilt
      | .byte _ :: _ => .stuck
    else pairing ps

/-- Whether a string can be read. That its bytes are text is looked at when it ends. -/
def RawString.wholeness (s : RawString) : Wholeness :=
  if s.ending ≠ .closed then .stuck
  else if pairing s.pieces = .sound ∧ !s.text.isOk then .spoilt
  else pairing s.pieces

/-! ## Numbers -/

/-- Whether a number can be read. An exponent that is too large is not read beyond the digit
that makes it so. -/
def Numeral.wholeness (x : Numeral) : Wholeness :=
  match x.quantity?, x.exponent with
  | some _, _ => .sound
  | none, some (negative, digits) =>
    if (Numeral.exponentValue? negative digits.dropLast).isSome then .spoilt else .stuck
  | none, none => .spoilt

/-! ## Values -/

mutual

/-- Whether a value can be read as a whole, with lists and objects nested no deeper than
`depth`. -/
def Raw.wholeness : Nat → Raw → Wholeness
  | _, .null | _, .bool _ => .sound
  | _, .number x ending => if ending = .complete then x.wholeness else .stuck
  | _, .string s => s.wholeness
  | 0, .array _ _ | 0, .object _ _ => .stuck
  | depth + 1, .array items ending => itemsWholeness depth ending items
  | depth + 1, .object members ending => membersWholeness depth ending members
  | _, .keyless | _, .absent | _, .garbled | _, .misspelt _ => .stuck

/-- Whether the items of a list can be read. -/
def itemsWholeness (depth : Nat) (ending : Ending) : List Raw → Wholeness
  | [] => if ending = .closed then .sound else .stuck
  | x :: xs =>
    (Raw.wholeness depth x).andThen (xs.isEmpty && ending == .closed)
      (itemsWholeness depth ending xs)

/-- Whether a member of an object can be read. A fault in its key is never at the end. -/
def memberWholeness (depth : Nat) : RawString × Raw → Wholeness
  | (key, value) => key.wholeness.andThen false (Raw.wholeness depth value)

/-- Whether the members of an object can be read. -/
def membersWholeness (depth : Nat) (ending : Ending) : List (RawString × Raw) → Wholeness
  | [] => if ending = .closed then .sound else .stuck
  | m :: ms =>
    (memberWholeness depth m).andThen (ms.isEmpty && ending == .closed)
      (membersWholeness depth ending ms)

end

/-- How deep the values of the members of a record may nest. -/
def memberDepth : Nat := 126

/-- The value of a member can be read as a whole. -/
def Raw.isSound (raw : Raw) : Bool := raw.wholeness memberDepth == .sound

/-- Accepts the value of a member if what follows it can be read. -/
def Decoder.passable : Decoder Unit := fun raw =>
  if raw.wholeness memberDepth = .stuck then .error .malformed else .ok ()

end ServiceRegistry.Json
