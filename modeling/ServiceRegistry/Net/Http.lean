/-
  ServiceRegistry.Net.Http

  Requests and responses, as far as the registry and its clients look at them.
-/
import ServiceRegistry.Json.Basic
import ServiceRegistry.Net.MediaType
import ServiceRegistry.Text.Segments

namespace ServiceRegistry.Net

/-- A request. The headers are bytes, which need not be text. -/
structure Request where
  method : String
  /-- A path with query and fragment, or a whole address. -/
  target : String
  contentType : Option (List UInt8) := none
  authorization : Option (List UInt8) := none
  body : List UInt8 := []
  deriving DecidableEq, Repr

/-- A response. -/
structure Response where
  status : Nat
  contentType : Option String := none
  /-- The methods that the path allows, when the method of the request is not among them. -/
  allow : Option String := none
  body : List UInt8 := []
  deriving DecidableEq, Repr

/-! ## Targets -/

/-- Characters of the scheme of an address. -/
def isSchemeChar (c : Char) : Bool := c.isAlphanum || c == '+' || c == '-' || c == '.'

/-- What follows the scheme of an address, from its authority on. -/
def afterScheme? (target : List Char) : Option (List Char) :=
  match target.takeWhile isSchemeChar, target.dropWhile isSchemeChar with
  | _ :: _, ':' :: '/' :: '/' :: rest => some rest
  | _, _ => none

/-- The characters that end a path. -/
def endsPath (c : Char) : Bool := c == '?' || c == '#'

/-- The path of a target. A whole address has at least the path of its root; an authority
without a scheme has none, and an asterisk stands for itself. -/
def pathOf (target : List Char) : List Char :=
  match target, afterScheme? target with
  | ['*'], _ => target
  | '/' :: _, _ => target.takeWhile (!endsPath ·)
  | _, some rest =>
    match (rest.dropWhile fun c => c != '/' && !endsPath c).takeWhile (!endsPath ·) with
    | [] => ['/']
    | path => path
  | _, none => []

/-- The path of a request, without the query and without a fragment. -/
def Request.path (r : Request) : String := String.ofList (pathOf r.target.toList)

/-- The text of a header; controls and bytes beyond ASCII are not allowed in it. -/
def headerText? (bytes : List UInt8) : Option String :=
  if bytes.all fun b => (0x20 ≤ b && b < 0x7f) || b == 0x09 then
    some (String.ofList (bytes.map fun b => Char.ofNat b.toNat))
  else none

/-- The media type of JSON bodies. -/
def jsonType : String := "application/json"

namespace Response

/-- A response without a body. -/
def empty (status : Nat) : Response := { status }

/-- A response with a text. -/
def text (status : Nat) (content : String) : Response :=
  { status, contentType := some "text/plain; charset=utf-8", body := Text.utf8 content }

/-- A response with a JSON value. -/
def json (status : Nat) (value : Json) : Response :=
  { status, contentType := some jsonType, body := value.bytes }

end Response

/-- The request was understood and carried out. -/
def isSuccess (status : Nat) : Bool := 200 ≤ status && status < 300

end ServiceRegistry.Net
