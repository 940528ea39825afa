/-
  ServiceRegistry.CommandLine.DotEnv

  Variables from a file. Each line is a name, an equals sign and a value, perhaps after the
  word `export`; blank lines and comments are skipped. Values may be quoted, also over
  several lines, and may refer to other variables. The first line that cannot be read ends
  the reading, and a variable that is set already keeps its value.
-/
import ServiceRegistry.CommandLine.Args
import ServiceRegistry.Text.Alphanumeric

namespace ServiceRegistry.CommandLine.DotEnv

/-! ## Characters -/

/-- Characters between words. -/
def isBlank (c : Char) : Bool :=
  c.isWhitespace || c == '\x0b' || c == '\x0c' || c == '\u0085' || c == '\u00a0' || c == '\u1680'
    || ('\u2000' ≤ c && c ≤ '\u200a') || c == '\u2028' || c == '\u2029' || c == '\u202f'
    || c == '\u205f' || c == '\u3000'

/-- Characters that begin a name. -/
def beginsName (c : Char) : Bool := c.isAlpha || c == '_'

/-- Characters of a name. -/
def isNameChar (c : Char) : Bool := c.isAlphanum || c == '_' || c == '.'

/-! ## Lines -/

/-- Where the search for the end of a line stands. -/
inductive Quoting
  | open
  /-- After a blank, where a comment may begin. -/
  | blank
  | escape
  | single
  | singleEscape
  | double
  | doubleEscape
  | comment
  deriving DecidableEq, Repr

/-- One character outside of quotes. -/
def Quoting.outside (c : Char) : Quoting :=
  if c = '\\' then escape
  else if c = '"' then double
  else if c = '\'' then single
  else «open»

/-- One character of a line. -/
def Quoting.next (c : Char) : Quoting → Quoting
  | «open» => if isBlank c && c != '\n' && c != '\r' then blank else outside c
  | blank => if c = '#' then comment else outside c
  | escape => «open»
  | double => if c = '\\' then doubleEscape else if c = '"' then «open» else double
  | doubleEscape => double
  | single => if c = '\\' then singleEscape else if c = '\'' then «open» else single
  | singleEscape => single
  | comment => comment

/-- A line and whether it ends inside of quotes. -/
def lineEnd : Quoting → List Char → List Char × Quoting
  | q, [] => ([], q)
  | q, c :: cs =>
    if q.next c = .comment then ([], .comment)
    else
      let (rest, q) := lineEnd (q.next c) cs
      (c :: rest, q)

/-- The lines of a text with their line feeds. -/
def physicalLines : List Char → List (List Char)
  | [] => []
  | c :: cs =>
    if c = '\n' then [c] :: physicalLines cs
    else match physicalLines cs with
      | [] => [[c]]
      | l :: ls => (c :: l) :: ls

/-- The line without the line feed that ends it. -/
def withoutLineFeed (line : List Char) : List Char :=
  match line.reverse with
  | '\n' :: '\r' :: cs => cs.reverse
  | '\n' :: cs => cs.reverse
  | _ => line

/-- Joins lines that are parted inside of quotes; `none` stands for an end that is missing. -/
def logicalLines : Quoting → List Char → List (List Char) → List (Option (List Char))
  | .open, _, [] => []
  | _, _, [] => [none]
  | q, before, line :: rest =>
    if ((before ++ line).dropWhile isBlank).head? = some '#' then
      some [] :: logicalLines .open [] rest
    else
      let (kept, q) := lineEnd q line
      match q with
      | .open => some (withoutLineFeed (before ++ kept)) :: logicalLines .open [] rest
      | .comment => some (before ++ kept) :: logicalLines .open [] rest
      | q => logicalLines q (before ++ kept) rest

/-! ## Values -/

/-- How a reference to a variable is being read. -/
inductive Reference
  | none
  | bare
  | braced
  deriving DecidableEq, Repr

/-- Where the reading of a value stands. -/
structure Reading where
  single : Bool := false
  double : Bool := false
  escaped : Bool := false
  /-- Only blanks and a comment may follow. -/
  ended : Bool := false
  reference : Reference := .none
  name : List Char := []
  output : List Char := []
  deriving DecidableEq, Repr

namespace Reading

/-- Appends a character. -/
def push (r : Reading) (c : Char) : Reading := { r with output := r.output ++ [c] }

/-- Appends the value of the variable that was named. -/
def substitute (env : Environment) (r : Reading) : Reading :=
  let value := (List.lookup (String.ofList r.name) env).getD ""
  { r with output := r.output ++ value.toList, name := [], reference := .none }

/-- A character after a backslash. -/
def escape? (c : Char) (r : Reading) : Option Reading :=
  if "\\'\"$ ".toList.contains c then some { r.push c with escaped := false }
  else if c = 'n' then some { r.push '\n' with escaped := false }
  else none

/-- A character of a reference. Letters and numbers of all scripts belong to a name. -/
def refer (env : Environment) (c : Char) (r : Reading) : Reading :=
  if Text.isAlphanumeric c then { r with name := r.name ++ [c] }
  else match r.reference with
    | .braced =>
      if c = '\x7d' then r.substitute env else { r with name := r.name ++ [c] }
    | _ =>
      if c = '\x7b' ∧ r.name = [] then { r with reference := .braced }
      else if c = '$' then { r.substitute env with reference := .bare }
      else (r.substitute env).push c

/-- A character outside of references. -/
def plain (c : Char) (r : Reading) : Reading :=
  if c = '$' then { r with reference := .bare }
  else if r.double then
    if c = '"' then { r with double := false }
    else if c = '\\' then { r with escaped := true }
    else r.push c
  else if c = '\'' then { r with single := true }
  else if c = '"' then { r with double := true }
  else if c = '\\' then { r with escaped := true }
  else if c = ' ' ∨ c = '\t' then { r with ended := true }
  else r.push c

/-- Reads a value. -/
def read? (env : Environment) : Reading → List Char → Option Reading
  | r, [] => some r
  | r, c :: cs =>
    if r.ended then
      if c = ' ' ∨ c = '\t' then read? env r cs
      else if c = '#' then some r
      else none
    else if r.escaped then (r.escape? c).bind fun r => read? env r cs
    else if r.single then read? env (if c = '\'' then { r with single := false } else r.push c) cs
    else if r.reference ≠ .none then read? env (r.refer env c) cs
    else read? env (r.plain c) cs

end Reading

/-- The value with a text; quotes and braces must be closed. -/
def value? (env : Environment) (text : List Char) : Option String :=
  (Reading.read? env {} text).bind fun r =>
    if r.reference = .braced ∨ r.single ∨ r.double then none
    else some (String.ofList (r.substitute env).output)

/-! ## Files -/

/-- Reads a name and gives the rest of the line after blanks. -/
def name? (line : List Char) : Option (List Char × List Char) :=
  match line with
  | c :: _ =>
    if beginsName c then
      some (line.takeWhile isNameChar, (line.dropWhile isNameChar).dropWhile isBlank)
    else none
  | [] => none

/-- Reads the name that a line sets, and the rest after the equals sign. The word `export`
may stand before the name. -/
def setting? (line : List Char) : Option (List Char × List Char) := do
  let (name, rest) ← name? line
  match rest with
  | '=' :: rest => some (name, rest)
  | rest =>
    if name = "export".toList then
      let (name, rest) ← name? rest
      match rest with
      | '=' :: rest => some (name, rest)
      | _ => none
    else none

/-- The line without blanks at its two ends. -/
def trimmed (line : List Char) : List Char :=
  ((line.reverse.dropWhile isBlank).reverse).dropWhile isBlank

/-- What a line says: nothing, or a variable and its value. -/
def readLine? (env : Environment) (line : List Char) : Option (Option (String × String)) :=
  match trimmed line with
  | [] | '#' :: _ => some none
  | line => do
    let (name, rest) ← setting? line
    match rest.dropWhile isBlank with
    | [] | '#' :: _ => some (some (String.ofList name, ""))
    | text => some (some (String.ofList name, ← value? env text))

/-- Sets the variables of lines in turn until one cannot be read. -/
def readLines : Environment → List (Option (List Char)) → Environment
  | env, some line :: rest =>
    match readLine? env line with
    | none => env
    | some none => readLines env rest
    | some (some (name, value)) =>
      readLines (if (List.lookup name env).isSome then env else env ++ [(name, value)]) rest
  | env, _ => env

/-- The environment with the variables of a file. -/
def extend (env : Environment) (text : String) : Environment :=
  let cs := match text.toList with
    | '\ufeff' :: cs => cs
    | cs => cs
  readLines env (logicalLines .open [] (physicalLines cs))

end ServiceRegistry.CommandLine.DotEnv
