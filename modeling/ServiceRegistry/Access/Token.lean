/-
  ServiceRegistry.Access.Token

  Signed tokens: a header, claims and a signature in base 64 between dots. The signature
  is the keyed hash of header and claims under a shared secret, so whoever knows the secret
  can tell its tokens from all others.
-/
import ServiceRegistry.Access.PublicKey
import ServiceRegistry.Digest.Hmac
import ServiceRegistry.Message.Decode
import ServiceRegistry.Message.Encode
import ServiceRegistry.Text.Base64Url
import ServiceRegistry.Text.Segments

namespace ServiceRegistry.Access

open Json (Decoder RecordField Raw Table)

/-- Why a token is not accepted. -/
inductive TokenError
  | invalidToken
  | base64
  | json
  | invalidAlgorithm
  | invalidSignature
  | expiredSignature
  | invalidAudience
  deriving DecidableEq, Repr

/-! ## Signing -/

/-- The base 64 text of bytes. -/
def encoded (bytes : List UInt8) : String := String.ofList (Text.Base64Url.encode bytes)

/-- The signature of a text under a secret. -/
def signature (secret text : String) : String :=
  encoded (Digest.hmacSha256 (Text.utf8 secret) (Text.utf8 text))

/-- The header of the tokens that are signed here. -/
def header : Json := .object [("typ", .string "JWT"), ("alg", .string "HS256")]

/-- Header and claims of a token. -/
def Claims.unsigned (c : Claims) : String := encoded header.bytes ++ "." ++ encoded c.toJson.bytes

/-- The token with these claims. -/
def Claims.sign (secret : String) (c : Claims) : String :=
  c.unsigned ++ "." ++ signature secret c.unsigned

/-! ## Headers -/

/-- The ways of signing that a header may name. -/
def algorithms : List String :=
  ["HS256", "HS384", "HS512", "ES256", "ES384", "RS256", "RS384", "RS512", "PS256", "PS384",
    "PS512", "EdDSA"]

/-- A text that a header may hold. -/
def headerText (name : String) : RecordField (Option String) := ⟨name, .optional .string, some none⟩

/-- The way of signing. -/
def headerAlgorithm : RecordField String := ⟨"alg", .named algorithms id, none⟩

/-- The certificates that a header may hold. -/
def headerChain : RecordField (Option (List String)) :=
  ⟨"x5c", .optional (.list .string), some none⟩

/-- The key that a header may hold. -/
def headerKey : RecordField (Option Unit) := ⟨"jwk", .optional publicKey, some none⟩

/-- Reads the way of signing from a header. In an array every field must be there. -/
def decodeHeader : Decoder String :=
  let rules := [(headerText "typ").rule, headerAlgorithm.rule, (headerText "cty").rule,
    (headerText "jku").rule, headerKey.rule, (headerText "kid").rule, (headerText "x5u").rule,
    headerChain.rule, (headerText "x5t").rule, (headerText "x5t#S256").rule]
  .record "Header" (rules.map fun r => { r with hasDefault := false }) fun t =>
    headerAlgorithm.get t

/-! ## Audiences -/

/-- The claims name an audience: a text, or a list of texts. -/
def namesAudience (raw : Raw) : Bool :=
  (Decoder.string raw).isOk || (Decoder.list Decoder.string raw).isOk

/-- Accepts a value that is read as a number, whatever it is. A list or an object is left
unread, so it must be empty. -/
def skimmed : Decoder Unit
  | .array (_ :: _) _ | .object (_ :: _) _ => .error .malformed
  | raw => Decoder.passable raw

/-- Reads whether the claims name an audience. They must be an object, in which the
registered names are not repeated. Values of the wrong type are passed over. -/
def decodeAudience : Decoder Bool
  | .object ms ending => do
    let t ← Json.scanMembers
      [⟨"exp", .anything, true⟩, ⟨"nbf", skimmed, true⟩, ⟨"sub", .anything, true⟩,
        ⟨"iss", .passable, true⟩, ⟨"aud", .passable, true⟩] ending [] ms
    pure ((t.lookup "aud").any namesAudience)
  | _ => .error .malformed

/-! ## Verification -/

/-- How long a token is still accepted after it has expired, in seconds. -/
def leeway : UInt64 := 60

/-- Header, claims and signature of a token. -/
def parts? (token : String) : Option (String × String × String) := do
  let (unsigned, signature) ← Text.cutLast? '.' token
  let (header, claims) ← Text.cutLast? '.' unsigned
  pure (header, claims, signature)

/-- Reads the only value of a text in base 64. -/
def decodePart {α : Type} (d : Decoder α) (part : String) : Except TokenError α :=
  match Text.Base64Url.decode? part.toList with
  | none => .error .base64
  | some bytes => (d.readWhole bytes).mapError fun _ => .json

/-- The claims of a token that was signed under the secret and has not expired. -/
def verify (secret token : String) (now : UInt64) : Except TokenError Claims :=
  match parts? token with
  | none => .error .invalidToken
  | some (header, payload, given) => do
    if (← decodePart decodeHeader header) ≠ "HS256" then throw .invalidAlgorithm
    if given ≠ signature secret (header ++ "." ++ payload) then throw .invalidSignature
    let claims ← decodePart Claims.decode payload
    let audience ← decodePart decodeAudience payload
    if elapsed claims.expiry now > leeway then throw .expiredSignature
    if audience then throw .invalidAudience
    pure claims

end ServiceRegistry.Access
