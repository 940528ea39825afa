/-
  ServiceRegistry.Digest.Hmac

  The keyed hash of a message: two nested hashes, each begun with the key in one block.
-/
import ServiceRegistry.Digest.Sha256

namespace ServiceRegistry.Digest

/-- The bytes of a block. -/
def blockLength : Nat := 64

/-- A key as one block: hashed if it is longer, filled up with zeros. -/
def keyBlock (key : List UInt8) : List UInt8 :=
  let short := if key.length ≤ blockLength then key else sha256 key
  short ++ List.replicate (blockLength - short.length) 0

/-- The keyed hash of a message. -/
def hmacSha256 (key message : List UInt8) : List UInt8 :=
  let block := keyBlock key
  sha256 (block.map (· ^^^ 0x5c) ++ sha256 (block.map (· ^^^ 0x36) ++ message))

end ServiceRegistry.Digest
