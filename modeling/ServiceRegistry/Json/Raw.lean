/-
  ServiceRegistry.Json.Raw

  JSON text as a tree, as far as it can be read. Where the text goes wrong the tree has a
  leaf or an ending that says so, and nothing after that place is ever looked at. Whether
  a fault counts is left to the walk over the tree: members that nobody asks for are only
  checked for their shape, and a wrong type is reported before a fault further on.
-/
import ServiceRegistry.Json.Basic

namespace ServiceRegistry.Json

open Text (ascii)

/-! ## Trees -/

/-- How a text is not JSON. -/
inductive Broken
  | malformed
  /-- The text ends too early. -/
  | truncated
  deriving DecidableEq, Repr

/-- How a string, an array or an object ends. -/
inductive Ending
  | closed
  | broken (how : Broken)
  /-- After a comma no further member begins. -/
  | dangling (how : Broken)
  deriving DecidableEq, Repr

/-- How a number ends: as a number, before a character that cannot follow, or with the
text where a digit is missing. -/
inductive NumberEnding
  | complete
  | stray
  | cut
  deriving DecidableEq, Repr

/-- A piece of a string: a byte, or a code unit given by its number. -/
inductive Piece
  | byte (value : UInt8)
  | unit (value : Nat)
  deriving DecidableEq, Repr

/-- The inside of a string. -/
structure RawString where
  pieces : List Piece
  ending : Ending
  deriving DecidableEq, Repr

/-- A text as far as it can be read. -/
inductive Raw
  | null
  | bool (value : Bool)
  | number (value : Numeral) (ending : NumberEnding)
  | string (value : RawString)
  | array (items : List Raw) (ending : Ending)
  | object (members : List (RawString × Raw)) (ending : Ending)
  /-- An object in which no key begins where the first one should. -/
  | keyless
  /-- The text ends before a value. -/
  | absent
  /-- No value begins here. -/
  | garbled
  /-- One of the words `null`, `true` and `false` goes wrong. -/
  | misspelt (how : Broken)
  deriving Repr

/-! ## Blanks and words -/

/-- Space, line feed, carriage return and tab. -/
def isBlank (b : UInt8) : Bool :=
  b == ascii ' ' || b == ascii '\n' || b == ascii '\r' || b == ascii '\t'

/-- The text from the first byte that is not blank. -/
def skipBlanks (text : List UInt8) : List UInt8 := text.dropWhile isBlank

/-- Reads the given bytes. -/
def readWord : List UInt8 → List UInt8 → Except Broken (List UInt8)
  | [], text => .ok text
  | _ :: _, [] => .error .truncated
  | w :: ws, b :: text => if w = b then readWord ws text else .error .malformed

/-- Reads the rest of a word that stands for a value. -/
def readNamed (value : Raw) (word : String) (text : List UInt8) : Raw × List UInt8 :=
  match readWord (word.toList.map ascii) text with
  | .ok rest => (value, rest)
  | .error how => (.misspelt how, [])

/-! ## Strings -/

/-- The byte that a backslash and a letter stand for. -/
def escaped? (b : UInt8) : Option UInt8 :=
  if b = ascii '"' ∨ b = ascii '\\' ∨ b = ascii '/' then some b
  else if b = ascii 'n' then some (ascii '\n')
  else if b = ascii 'r' then some (ascii '\r')
  else if b = ascii 't' then some (ascii '\t')
  else if b = ascii 'b' then some 0x08
  else if b = ascii 'f' then some 0x0c
  else none

/-- The number with the given hexadecimal digits. -/
def hexValue? (digits : List UInt8) : Option Nat :=
  digits.foldlM (fun n d => (Text.byteDigitIn? 16 d).map (n * 16 + ·)) 0

/-- Puts a piece before those of a string. -/
def RawString.cons (p : Piece) : RawString × List UInt8 → RawString × List UInt8
  | (s, rest) => ({ s with pieces := p :: s.pieces }, rest)

/-- Reads a string after its opening quote. -/
def readString : List UInt8 → RawString × List UInt8
  | [] => (⟨[], .broken .truncated⟩, [])
  | b :: text =>
    if b = ascii '"' then (⟨[], .closed⟩, text)
    else if b = ascii '\\' then
      match text with
      | [] => (⟨[], .broken .truncated⟩, [])
      | e :: text =>
        if e = ascii 'u' then
          match text with
          | p :: q :: r :: s :: text =>
            match hexValue? [p, q, r, s] with
            | some n => RawString.cons (.unit n) (readString text)
            | none => (⟨[], .broken .malformed⟩, [])
          | _ => (⟨[], .broken .truncated⟩, [])
        else
          match escaped? e with
          | some c => RawString.cons (.byte c) (readString text)
          | none => (⟨[], .broken .malformed⟩, [])
    else if b < 0x20 then (⟨[], .broken .malformed⟩, [])
    else RawString.cons (.byte b) (readString text)

/-! ## Numbers -/

/-- The ending of a number where a digit is missing before the rest of the text. -/
def missingDigit (rest : List UInt8) : NumberEnding :=
  if rest = [] then .cut else .stray

/-- Cuts a text after its leading digits. -/
def spanDigits (text : List UInt8) : List UInt8 × List UInt8 :=
  (text.takeWhile Text.isDigitByte, text.dropWhile Text.isDigitByte)

/-- Reads the exponent of a number, if there is one. -/
def readExponent (x : Numeral) (text : List UInt8) : Raw × List UInt8 :=
  match text with
  | b :: rest =>
    if b = ascii 'e' ∨ b = ascii 'E' then
      let negative := rest.head? = some (ascii '-')
      let signed := negative ∨ rest.head? = some (ascii '+')
      let rest := if signed then rest.drop 1 else rest
      match spanDigits rest with
      | ([], rest) => (.number x (missingDigit rest), [])
      | (ds, rest) => (.number { x with exponent := some (negative, ds) } .complete, rest)
    else (.number x .complete, text)
  | [] => (.number x .complete, [])

/-- Reads fraction and exponent of a number, if there are any. -/
def readFraction (x : Numeral) (text : List UInt8) : Raw × List UInt8 :=
  match text with
  | b :: rest =>
    if b = ascii '.' then
      match spanDigits rest with
      | ([], rest) => (.number x (missingDigit rest), [])
      | (ds, rest) => readExponent { x with fraction := some ds } rest
    else readExponent x text
  | [] => readExponent x text

/-- Reads a number after its sign. A leading zero stands alone. -/
def readNumber (negative : Bool) (text : List UInt8) : Raw × List UInt8 :=
  match spanDigits text with
  | ([], rest) => (.number { negative, whole := [] } (missingDigit rest), [])
  | (d :: ds, rest) =>
    if d = ascii '0' ∧ ds ≠ [] then (.number { negative, whole := [d] } .stray, [])
    else readFraction { negative, whole := d :: ds } rest

/-! ## Values -/

mutual

/-- Reads a value. -/
def readValue : Nat → List UInt8 → Raw × List UInt8
  | 0, _ => (.garbled, [])
  | fuel + 1, text =>
    match skipBlanks text with
    | [] => (.absent, [])
    | b :: rest =>
      if b = ascii 'n' then readNamed .null "ull" rest
      else if b = ascii 't' then readNamed (.bool true) "rue" rest
      else if b = ascii 'f' then readNamed (.bool false) "alse" rest
      else if b = ascii '"' then
        let (s, rest) := readString rest
        (.string s, rest)
      else if b = ascii '-' then readNumber true rest
      else if Text.isDigitByte b then readNumber false (b :: rest)
      else if b = ascii '[' then
        match skipBlanks rest with
        | [] => (.array [] (.broken .truncated), [])
        | c :: rest' =>
          if c = ascii ']' then (.array [] .closed, rest')
          else
            let (items, ending, rest) := readItems fuel rest
            (.array items ending, rest)
      else if b = ascii '\x7b' then
        match skipBlanks rest with
        | [] => (.object [] (.broken .truncated), [])
        | c :: rest' =>
          if c = ascii '\x7d' then (.object [] .closed, rest')
          else if c = ascii '"' then
            let (members, ending, rest) := readMembers fuel rest'
            (.object members ending, rest)
          else (.keyless, [])
      else (.garbled, [])

/-- Reads the items of an array from the first one on. -/
def readItems : Nat → List UInt8 → List Raw × Ending × List UInt8
  | 0, _ => ([], .broken .malformed, [])
  | fuel + 1, text =>
    let (item, rest) := readValue fuel text
    match skipBlanks rest with
    | [] => ([item], .broken .truncated, [])
    | b :: rest =>
      if b = ascii ']' then ([item], .closed, rest)
      else if b = ascii ',' then
        let (items, ending, rest) := readItems fuel rest
        (item :: items, ending, rest)
      else ([item], .broken .malformed, [])

/-- Reads the members of an object from the first key on, after its opening quote. -/
def readMembers : Nat → List UInt8 → List (RawString × Raw) × Ending × List UInt8
  | 0, _ => ([], .broken .malformed, [])
  | fuel + 1, text =>
    let (key, rest) := readString text
    let (value, rest) := match skipBlanks rest with
      | [] => (Raw.absent, [])
      | b :: rest => if b = ascii ':' then readValue fuel rest else (Raw.garbled, [])
    match skipBlanks rest with
    | [] => ([(key, value)], .broken .truncated, [])
    | b :: rest =>
      if b = ascii '\x7d' then ([(key, value)], .closed, rest)
      else if b = ascii ',' then
        match skipBlanks rest with
        | [] => ([(key, value)], .dangling .truncated, [])
        | c :: rest =>
          if c = ascii '"' then
            let (members, ending, rest) := readMembers fuel rest
            ((key, value) :: members, ending, rest)
          else ([(key, value)], .dangling .malformed, [])
      else ([(key, value)], .broken .malformed, [])

end

/-- Reads the first value of a text; gives the rest. Every call takes a byte or is made
by one that has, so two calls for each byte are enough. -/
def Raw.read (text : List UInt8) : Raw × List UInt8 := readValue (2 * text.length + 2) text

end ServiceRegistry.Json
