/-
  ServiceRegistry.Access.PublicKey

  The public key that the header of a token may describe. The key is never used: tokens are
  checked with the shared secret alone. But a header whose key is no key is no header, so
  its members are looked at: those that every key may have, and those of one of four kinds.
-/
import ServiceRegistry.Json.Whole

namespace ServiceRegistry.Access

open Json (Decoder Raw RawString)

/-! ## Values -/

/-- The string is one of the texts. -/
def isAmong (texts : List String) (s : RawString) : Bool :=
  match s.text with
  | .ok text => texts.contains text
  | .error _ => false

/-- What the value of a member must be. -/
abbrev Shape : Type := Raw → Bool

/-- The value is a text. -/
def isText : Shape := fun raw => (Decoder.string raw).isOk

/-- The value is a list of texts. -/
def isTexts : Shape := fun raw => (Decoder.list .string raw).isOk

/-- The value is null. -/
def isNull : Shape
  | .null => true
  | _ => false

/-- The value is null or an object without members. -/
def isVoid : Shape
  | .null | .object [] _ => true
  | _ => false

/-- The value is one of the names, alone or as the only member of an object that says
nothing about it. -/
def isNamed (names : List String) (saysNothing : Shape) : Shape
  | .string s => isAmong names s
  | .object [(key, value)] _ => isAmong names key && saysNothing value
  | _ => false

/-! ## Members -/

/-- The value of the only member with a name; `none` when there is no such member or more
than one. -/
def onlyMember? (name : String) (members : List (RawString × Raw)) : Option Raw :=
  match members.filter fun m => isAmong [name] m.1 with
  | [m] => some m.2
  | _ => none

/-- No member has the name. -/
def lacks (name : String) (members : List (RawString × Raw)) : Bool :=
  !members.any fun m => isAmong [name] m.1

/-- The ways of using a key that its description may name. -/
def keyAlgorithms : List String :=
  ["HS256", "HS384", "HS512", "ES256", "ES384", "RS256", "RS384", "RS512", "PS256", "PS384",
    "PS512", "EdDSA", "RSA1_5", "RSA-OAEP", "RSA-OAEP-256"]

/-- The members that every key may have. Each may also be null. -/
def commonMembers : List (String × Shape) :=
  [("use", isText), ("key_ops", isTexts), ("alg", isNamed keyAlgorithms isVoid), ("kid", isText),
    ("x5u", isText), ("x5c", isTexts), ("x5t", isText), ("x5t#S256", isText)]

/-- The names of curves. -/
def curves : List String := ["P-256", "P-384", "P-521", "Ed25519"]

/-- The member that names the kind of a key. -/
def kindMember (kind : String) : String × Shape := ("kty", isNamed [kind] isNull)

/-- The member that names a curve. -/
def curveMember : String × Shape := ("crv", isNamed curves isNull)

/-- The kinds of keys, each with the members that it must have: points of a curve, a modulus
with an exponent, secret bytes, and keys of a curve with one coordinate. -/
def keyKinds : List (List (String × Shape)) :=
  [[kindMember "EC", curveMember, ("x", isText), ("y", isText)],
    [kindMember "RSA", ("n", isText), ("e", isText)],
    [kindMember "oct", ("k", isText)],
    [kindMember "OKP", curveMember, ("x", isText)]]

/-! ## Keys -/

/-- The members describe a key. -/
def describeKey (members : List (RawString × Raw)) : Bool :=
  commonMembers.all (fun (name, shape) =>
    lacks name members || (onlyMember? name members).any fun v => isNull v || shape v)
  && keyKinds.any fun kind => kind.all fun (name, shape) => (onlyMember? name members).any shape

/-- Accepts the description of a key. -/
def publicKey : Decoder Unit
  | .object members ending =>
    if (Raw.object members ending).isSound && describeKey members then .ok ()
    else .error .malformed
  | _ => .error .malformed

end ServiceRegistry.Access
