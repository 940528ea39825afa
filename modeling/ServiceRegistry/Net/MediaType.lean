/-
  ServiceRegistry.Net.MediaType

  Media types of message bodies: a type, a subtype with perhaps a suffix after its last
  plus sign, and parameters. Letter case does not matter.
-/
import ServiceRegistry.Text.Ascii

namespace ServiceRegistry.Net

/-- A media type in small letters, without its parameters. -/
structure MediaType where
  type : List Char
  subtype : List Char
  suffix : Option (List Char)
  deriving DecidableEq, Repr

namespace MediaType

/-! ## Characters -/

/-- Characters of a token. -/
def isToken (c : Char) : Bool := c.isAlphanum || "!#$%&'*+-.^_\x60|~".toList.contains c

/-- Characters between quotes. -/
def isQuotable (c : Char) : Bool := ' ' ≤ c && c ≤ '~'

/-! ## Parameters -/

/-- Where the reading of parameters stands. -/
inductive Place
  /-- Before a name. -/
  | start
  | name
  /-- After the equals sign. -/
  | value
  | token
  /-- After an opening quote, where even a quote is taken as it is. -/
  | opened
  | quoted
  /-- After a closing quote. -/
  | closed
  deriving DecidableEq, Repr

/-- One character of the parameters. -/
def Place.next? (c : Char) : Place → Option Place
  | start =>
    if c = ' ' then some start
    else if isToken c then some name
    else none
  | name =>
    if c = '=' then some value
    else if isToken c then some name
    else none
  | value =>
    if c = '"' then some opened
    else if isToken c then some token
    else none
  | token =>
    if c = ';' then some start
    else if isToken c then some token
    else none
  | opened => if isQuotable c then some quoted else none
  | quoted =>
    if c = '"' then some closed
    else if isQuotable c then some quoted
    else none
  | closed =>
    if c = ';' then some start
    else if c = ' ' then some closed
    else none

/-- The parameters may end here. A value that has not begun may stay empty. -/
def Place.isEnd : Place → Bool
  | start | value | token | closed => true
  | name | opened | quoted => false

/-- The text reads as parameters. -/
def areParameters (text : List Char) : Bool :=
  (text.foldlM (fun p c => Place.next? c p) Place.start).any (·.isEnd)

/-! ## Types -/

/-- Cuts a subtype before its last plus sign that is not its first character. -/
def cutSuffix (subtype : List Char) : List Char × Option (List Char) :=
  let back := subtype.reverse
  let front := (back.dropWhile (· ≠ '+')).drop 1
  if front = [] then (subtype, none)
  else (front.reverse, some (back.takeWhile (· ≠ '+')).reverse)

/-- The media type with a text. -/
def ofText? (text : String) : Option MediaType :=
  let cs := text.toList.map Char.toLower
  let type := cs.takeWhile isToken
  match cs.dropWhile isToken with
  | '/' :: cs =>
    let subtype := cs.takeWhile isToken
    let rest := cs.dropWhile isToken
    let fits := match rest with
      | [] => true
      | c :: parameters => c = ';' && areParameters parameters
    if type = [] ∨ (subtype = [] ∧ rest ≠ []) ∨ !fits then none
    else
      let (subtype, suffix) := cutSuffix subtype
      some ⟨type, subtype, suffix⟩
  | _ => none

/-- The type of JSON bodies, or one that is marked as JSON by its suffix. -/
def isJson (m : MediaType) : Bool :=
  m.type == "application".toList
    && (m.subtype == "json".toList || m.suffix == some "json".toList)

end MediaType

end ServiceRegistry.Net
