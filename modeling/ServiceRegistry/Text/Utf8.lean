/-
  ServiceRegistry.Text.Utf8

  Text as bytes. Strict reading refuses bytes that are not UTF-8; lenient reading puts
  U+FFFD in the place of each maximal piece that begins no character.
-/

namespace ServiceRegistry.Text

/-- The UTF-8 bytes of a text. -/
def utf8 (text : String) : List UInt8 :=
  text.toByteArray.data.toList

/-- The text with the given UTF-8 bytes. -/
def ofUtf8? (bytes : List UInt8) : Option String :=
  String.fromUTF8? bytes.toByteArray

theorem ofUtf8?_utf8 (text : String) : ofUtf8? (utf8 text) = some text := by
  have h : text.toByteArray.data.toList.toByteArray = text.toByteArray :=
    ByteArray.ext (by rw [List.data_toByteArray, Array.toArray_toList])
  simp only [ofUtf8?, utf8, h, String.fromUTF8?, text.isValidUTF8, dite_true]
  rfl

/-! ## Lenient reading -/

/-- A byte of the form `10xxxxxx`. -/
def isContinuation (b : UInt8) : Bool := 0x80 ≤ b && b ≤ 0xBF

/-- How many bytes follow a leading byte, and the range of the first of them. -/
def continuationOf? (lead : UInt8) : Option (Nat × UInt8 × UInt8) :=
  if 0xC2 ≤ lead && lead ≤ 0xDF then some (1, 0x80, 0xBF)
  else if lead = 0xE0 then some (2, 0xA0, 0xBF)
  else if lead = 0xED then some (2, 0x80, 0x9F)
  else if 0xE1 ≤ lead && lead ≤ 0xEF then some (2, 0x80, 0xBF)
  else if lead = 0xF0 then some (3, 0x90, 0xBF)
  else if lead = 0xF4 then some (3, 0x80, 0x8F)
  else if 0xF1 ≤ lead && lead ≤ 0xF3 then some (3, 0x80, 0xBF)
  else none

/-- The length of the longest beginning of `rest` that continues `lead`. -/
def continuationLength (lead : UInt8) (rest : List UInt8) : Nat :=
  match continuationOf? lead, rest with
  | some (n, low, high), b :: bs =>
    if low ≤ b && b ≤ high then 1 + ((bs.take (n - 1)).takeWhile isContinuation).length else 0
  | _, _ => 0

/-- The code point of a leading byte with its continuation bytes. -/
def codePoint (lead : UInt8) (following : List UInt8) : Nat :=
  let bits := match following.length with
    | 1 => lead.toNat % 32
    | 2 => lead.toNat % 16
    | _ => lead.toNat % 8
  following.foldl (fun n b => n * 64 + b.toNat % 64) bits

/-- The first character of a nonempty list of bytes, and how many bytes after the
first belong to it. -/
def lenientChar (lead : UInt8) (rest : List UInt8) : Char × Nat :=
  if lead < 0x80 then (Char.ofNat lead.toNat, 0)
  else
    let n := continuationLength lead rest
    match continuationOf? lead with
    | some (needed, _, _) =>
      if n = needed then (Char.ofNat (codePoint lead (rest.take n)), n) else ('\uFFFD', n)
    | none => ('\uFFFD', 0)

/-- Lenient reading; `fuel` bounds the number of characters. -/
def lenientChars : Nat → List UInt8 → List Char
  | 0, _ => []
  | _, [] => []
  | fuel + 1, b :: bs =>
    let (c, n) := lenientChar b bs
    c :: lenientChars fuel (bs.drop n)

/-- Reads bytes as UTF-8 with U+FFFD for what is not. -/
def ofUtf8Lenient (bytes : List UInt8) : String :=
  String.ofList (lenientChars bytes.length bytes)

end ServiceRegistry.Text
