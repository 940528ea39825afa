/-
  ServiceRegistry.Json.Basic

  JSON values and their compact text. Objects keep their members in the order written. In
  strings, quotes, backslashes and controls are escaped and everything else is left as it
  is, so that escaping can work byte by byte.
-/
import ServiceRegistry.Json.Numeral
import ServiceRegistry.Text.Utf8

namespace ServiceRegistry

open Text (ascii)

/-- A JSON value. -/
inductive Json
  | null
  | bool (value : Bool)
  | number (value : Json.Numeral)
  | string (value : String)
  | array (items : List Json)
  | object (members : List (String × Json))
  deriving Repr, Inhabited

namespace Json

/-- The value of a natural number. -/
def natural (n : Nat) : Json := .number (.ofNat n)

/-! ## Text -/

/-- The digit of a value below sixteen. -/
def hexDigit (n : Nat) : UInt8 := ascii (Nat.digitChar n)

/-- One byte of a string. -/
def escapedByte (b : UInt8) : List UInt8 :=
  if b = ascii '"' then [ascii '\\', ascii '"']
  else if b = ascii '\\' then [ascii '\\', ascii '\\']
  else if b = ascii '\n' then [ascii '\\', ascii 'n']
  else if b = ascii '\r' then [ascii '\\', ascii 'r']
  else if b = ascii '\t' then [ascii '\\', ascii 't']
  else if b = 0x08 then [ascii '\\', ascii 'b']
  else if b = 0x0c then [ascii '\\', ascii 'f']
  else if b < 0x20 then
    [ascii '\\', ascii 'u', ascii '0', ascii '0', hexDigit (b.toNat / 16), hexDigit (b.toNat % 16)]
  else [b]

/-- A string between quotes. -/
def stringBytes (text : String) : List UInt8 :=
  ascii '"' :: (Text.utf8 text).flatMap escapedByte ++ [ascii '"']

mutual

/-- The compact text of a value, as bytes. -/
def bytes : Json → List UInt8
  | null => "null".toList.map ascii
  | bool true => "true".toList.map ascii
  | bool false => "false".toList.map ascii
  | number x => x.bytes
  | string s => stringBytes s
  | array [] => [ascii '[', ascii ']']
  | array (x :: xs) => ascii '[' :: bytes x ++ itemsBytes xs
  | object [] => [ascii '\x7b', ascii '\x7d']
  | object (m :: ms) => ascii '\x7b' :: memberBytes m ++ membersBytes ms

/-- The items after the first, and the closing bracket. -/
def itemsBytes : List Json → List UInt8
  | [] => [ascii ']']
  | x :: xs => ascii ',' :: bytes x ++ itemsBytes xs

/-- A member of an object. -/
def memberBytes : String × Json → List UInt8
  | (key, value) => stringBytes key ++ ascii ':' :: bytes value

/-- The members after the first, and the closing brace. -/
def membersBytes : List (String × Json) → List UInt8
  | [] => [ascii '\x7d']
  | m :: ms => ascii ',' :: memberBytes m ++ membersBytes ms

end

end Json

end ServiceRegistry
