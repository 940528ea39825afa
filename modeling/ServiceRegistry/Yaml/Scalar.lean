/-
  ServiceRegistry.Yaml.Scalar

  Texts as YAML scalars. A text stands plain unless it would read as something else; then
  it is put in single quotes, a text with line feeds becomes a literal block, and what
  neither can hold is put in double quotes with escapes.
-/
import ServiceRegistry.Decimal.Binary64
import ServiceRegistry.Text.Ascii
import ServiceRegistry.Text.Segments

namespace ServiceRegistry.Yaml

/-! ## Characters -/

/-- Characters that end a line. -/
def isBreak (c : Char) : Bool :=
  c == '\n' || c == '\r' || c == '\u0085' || c == '\u2028' || c == '\u2029'

/-- Characters that part words. -/
def isBlank (c : Char) : Bool := c == ' ' || c == '\t' || c == '\x00' || isBreak c

/-- Characters that may stand unescaped. -/
def isPrintable (c : Char) : Bool :=
  c == '\n' || (' ' ≤ c && c ≤ '~') ||
    ('\u00a0' ≤ c && c != '\ufeff' && c != '\ufffe' && c != '\uffff')

/-! ## Texts that read as something else -/

/-- The words for nothing and for truth values. -/
def reservedWords : List String :=
  ["", "~", "null", "Null", "NULL", "true", "True", "TRUE", "false", "False", "FALSE"]

/-- The words for numbers that are not finite. -/
def boundlessWords : List String :=
  [".inf", ".Inf", ".INF", "+.inf", "+.Inf", "+.INF", "-.inf", "-.Inf", "-.INF", ".nan", ".NaN",
    ".NAN"]

/-- A text without one leading sign, and whether the sign is a minus. -/
def unsigned : List Char → Bool × List Char
  | '-' :: cs => (true, cs)
  | '+' :: cs => (false, cs)
  | cs => (false, cs)

/-- An integer with a base mark, which must fit in 128 bits. -/
def isBasedInteger (text : List Char) : Bool :=
  let (negative, cs) := unsigned text
  let bound := if negative then Nat.pow 2 127 + 1 else Nat.pow 2 128
  let fits (base : Nat) (digits : List Char) : Bool :=
    (Text.readNatural? base digits).any (· < bound)
  match cs with
  | '0' :: 'x' :: ds => fits 16 ds
  | '0' :: 'o' :: ds => fits 8 ds
  | '0' :: 'b' :: ds => fits 2 ds
  | _ => false

/-- Splits a number at its exponent mark. -/
def mantissaAndExponent (cs : List Char) : List Char × Option (List Char) :=
  let isMark (c : Char) : Bool := c == 'e' || c == 'E'
  match cs.dropWhile (!isMark ·) with
  | [] => (cs, none)
  | _ :: e => (cs.takeWhile (!isMark ·), some e)

/-- The value of an exponent, zero if there is none. -/
def exponentValue? : Option (List Char) → Option Int
  | none => some 0
  | some cs =>
    let (negative, ds) := unsigned cs
    (Text.readNatural? 10 ds).map fun n => if negative then - Int.ofNat n else Int.ofNat n

/-- A decimal number with a finite value: digits with or without a point, and perhaps an
exponent. -/
def isDecimal (text : List Char) : Bool :=
  let (mantissa, exponent) := mantissaAndExponent (unsigned text).2
  let whole := mantissa.takeWhile (· ≠ '.')
  let fraction := (mantissa.dropWhile (· ≠ '.')).drop 1
  match Text.readNatural? 10 (whole ++ fraction), exponentValue? exponent with
  | some n, some e => Decimal.Binary64.isFiniteDecimal n (e - Int.ofNat fraction.length)
  | _, _ => false

/-- Digits after a zero, which some readers take for a number. -/
def isZeroPadded (text : List Char) : Bool :=
  match (unsigned text).2 with
  | '0' :: d :: ds => (d :: ds).all (·.isDigit)
  | _ => false

/-- The plain text would read as something else than a text. -/
def isAmbiguous (text : String) : Bool :=
  reservedWords.contains text || boundlessWords.contains text || isZeroPadded text.toList
    || isBasedInteger text.toList || isDecimal text.toList

/-! ## Texts that break the structure -/

/-- Nothing or a blank follows. -/
def endsWord : List Char → Bool
  | [] => true
  | c :: _ => isBlank c

/-- A character that cannot begin a plain text. -/
def beginsIndicator (c : Char) (rest : List Char) : Bool :=
  "#,[]\x7b\x7d&*!|>'\"%@\x60".toList.contains c || ("?:-".toList.contains c && endsWord rest)

/-- A colon at the end of a word or a number sign at its beginning. -/
def holdsIndicator : Char → List Char → Bool
  | _, [] => false
  | before, c :: cs =>
    (c == ':' && endsWord cs) || (c == '#' && isBlank before) || holdsIndicator c cs

/-- The text holds a mark of the format. -/
def hasIndicators (text : List Char) : Bool :=
  ['-', '-', '-'].isPrefixOf text || ['.', '.', '.'].isPrefixOf text ||
    match text with
    | [] => false
    | c :: cs => beginsIndicator c cs || holdsIndicator c cs

/-- Some character with a property is followed by one with another. -/
def hasPair (p q : Char → Bool) : List Char → Bool
  | c :: d :: cs => (p c && q d) || hasPair p q (d :: cs)
  | _ => false

/-- A blank or a line break at an edge of the text. -/
def hasOpenEdge (text : List Char) : Bool :=
  let isEdge (c : Char) : Bool := c == ' ' || isBreak c
  text.head?.any isEdge || text.getLast?.any isEdge

/-! ## Styles -/

/-- How a text is written. -/
inductive Style
  | plain
  | single
  | double
  | literal
  deriving DecidableEq, Repr

/-- Only double quotes can hold the text. -/
def needsEscapes (text : List Char) : Bool :=
  text.any (!isPrintable ·) || hasPair (· == ' ') isBreak text

/-- The style of a text. -/
def styleOf (text : String) : Style :=
  let cs := text.toList
  let escaped := needsEscapes cs || hasPair isBreak (· == ' ') cs
  let quotes : Style := if escaped then .double else .single
  if cs.contains '\n' then
    if needsEscapes cs || cs.getLast? == some ' ' then .double else .literal
  else if isAmbiguous text || hasOpenEdge cs || hasIndicators cs || cs.any isBreak then quotes
  else if needsEscapes cs then .double
  else .plain

/-! ## Writing -/

/-- A code point with a fixed number of digits. -/
def paddedHex (digits n : Nat) : List Char :=
  let ds := (Nat.toDigits 16 n).map Char.toUpper
  List.replicate (digits - ds.length) '0' ++ ds

/-- The letters that escape certain characters. -/
def escapeLetters : List (Char × Char) :=
  [('\x00', '0'), ('\x07', 'a'), ('\x08', 'b'), ('\t', 't'), ('\n', 'n'), ('\x0b', 'v'),
    ('\x0c', 'f'), ('\r', 'r'), ('\x1b', 'e'), ('"', '"'), ('\\', '\\'), ('\u0085', 'N'),
    ('\u2028', 'L'), ('\u2029', 'P')]

/-- One character between double quotes. -/
def escapedChar (c : Char) : List Char :=
  match escapeLetters.lookup c with
  | some letter => ['\\', letter]
  | none =>
    if isPrintable c then [c]
    else if c.toNat < 0x100 then '\\' :: 'x' :: paddedHex 2 c.toNat
    else if c.toNat < 0x10000 then '\\' :: 'u' :: paddedHex 4 c.toNat
    else '\\' :: 'U' :: paddedHex 8 c.toNat

/-- What the last breaks of a literal block mean: none, one that is kept, or all of them. -/
def chomping (text : List Char) : List Char :=
  match text.reverse with
  | c :: d :: _ => if !isBreak c then ['-'] else if isBreak d then ['+'] else []
  | [c] => if isBreak c then ['+'] else ['-']
  | [] => ['-']

/-- The first line of a literal block. -/
def literalHead (text : List Char) : List Char :=
  let hint := if text.head?.any fun c => c == ' ' || isBreak c then ['2'] else []
  '|' :: hint ++ chomping text

/-- Ends the last line unless the text has done so. -/
def endLine (text : List Char) : List Char :=
  if text.getLast?.any isBreak then text else text ++ ['\n']

/-- Puts two blanks at the beginning of every line that is not empty. -/
def indented : Bool → List Char → List Char
  | _, [] => []
  | atStart, c :: cs =>
    if isBreak c then c :: indented true cs
    else if atStart then ' ' :: ' ' :: c :: indented false cs
    else c :: indented false cs

/-- A text as a scalar in a block, with the lines after the first not yet indented. -/
def scalar (text : String) : List Char :=
  let cs := text.toList
  match styleOf text with
  | .plain => cs ++ ['\n']
  | .single => '\'' :: cs.flatMap (fun c => if c = '\'' then ['\'', '\''] else [c]) ++ ['\'', '\n']
  | .double => '"' :: cs.flatMap escapedChar ++ ['"', '\n']
  | .literal => literalHead cs ++ '\n' :: endLine cs

end ServiceRegistry.Yaml
