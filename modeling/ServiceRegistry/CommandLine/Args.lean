/-
  ServiceRegistry.CommandLine.Args

  Words of a command line. Options have long names and one value each, in the next word or
  after an equals sign; a value that stands in a word of its own is checked only when the
  next option begins or the words end. What the words leave open is taken from the
  environment, in the order of the options.
-/
import ServiceRegistry.Access.Role
import ServiceRegistry.Net.Ip
import ServiceRegistry.Text.Segments

namespace ServiceRegistry.CommandLine

/-! ## Errors -/

/-- Why words are not accepted. -/
inductive ArgError
  | unknownArgument
  | valueValidation
  /-- An option without value, or a path that is empty. -/
  | invalidValue
  | tooManyValues
  | argumentConflict
  | missingRequiredArgument
  | invalidSubcommand
  | missingSubcommand
  /-- Help is asked for, which is no failure. -/
  | displayHelp
  deriving DecidableEq, Repr

/-- The name of an error. -/
def ArgError.name : ArgError → String
  | unknownArgument => "UnknownArgument"
  | valueValidation => "ValueValidation"
  | invalidValue => "InvalidValue"
  | tooManyValues => "TooManyValues"
  | argumentConflict => "ArgumentConflict"
  | missingRequiredArgument => "MissingRequiredArgument"
  | invalidSubcommand => "InvalidSubcommand"
  | missingSubcommand => "MissingSubcommand"
  | displayHelp => "DisplayHelp"

/-! ## Grammars -/

/-- What the value of an option must be. -/
inductive ValueKind
  | text
  /-- A natural number below a bound. -/
  | natural (bound : Nat)
  /-- A natural number below a bound, where a zero may have a minus sign. -/
  | signed (bound : Nat)
  | ip
  | path
  | role
  deriving DecidableEq, Repr

/-- Checks a value. -/
def ValueKind.check (kind : ValueKind) (value : String) : Except ArgError Unit :=
  let valid := match kind with
    | text | path => true
    | natural bound => (Text.readUnsigned? bound value).isSome
    | signed bound => (Text.readSigned? bound value).isSome
    | ip => (Net.Ip.ofText? value).isSome
    | role => (Access.Role.read? value).isSome
  if kind = path ∧ value = "" then .error .invalidValue
  else if valid then .ok ()
  else .error .valueValidation

/-- An option. -/
structure Flag where
  name : String
  kind : ValueKind := .text
  /-- The variable of the environment that stands in for the option. -/
  fallback : Option String := none
  /-- The option may be given more than once. -/
  repeats : Bool := false
  /-- The option must be given. -/
  required : Bool := false
  deriving DecidableEq, Repr

/-- How many words may stand outside of options. -/
inductive Operands
  | none
  | one
  | many
  deriving DecidableEq, Repr

/-- What a command line may consist of. -/
structure Grammar where
  flags : List Flag
  operands : Operands := .none
  subcommands : List String := []
  deriving DecidableEq, Repr

/-- What a command line consists of. -/
structure Matches where
  /-- Names of options with their values, in order. -/
  values : List (String × String) := []
  operands : List String := []
  /-- A subcommand and the words after it. -/
  subcommand : Option (String × List String) := none
  deriving DecidableEq, Repr

namespace Matches

/-- The value of an option. -/
def value? (m : Matches) (name : String) : Option String := m.values.lookup name

/-- All values of an option. -/
def allValues (m : Matches) (name : String) : List String :=
  (m.values.filter (·.1 == name)).map (·.2)

/-- Takes a value of an option. -/
def accept (m : Matches) (f : Flag) (value : String) : Except ArgError Matches :=
  if !f.repeats && (m.value? f.name).isSome then .error .argumentConflict
  else (f.kind.check value).map fun _ => { m with values := m.values ++ [(f.name, value)] }

/-- Takes a word outside of options. -/
def operand (m : Matches) (g : Grammar) (word : String) : Except ArgError Matches :=
  let free := match g.operands with
    | .none => false
    | .one => m.operands.isEmpty
    | .many => true
  if free then .ok { m with operands := m.operands ++ [word] }
  else if g.subcommands.isEmpty then .error .unknownArgument
  else .error .invalidSubcommand

end Matches

/-! ## Words -/

/-- An option whose value has not been checked yet. -/
inductive Pending
  | none
  | waiting (flag : Flag)
  | holding (flag : Flag) (value : String)
  deriving DecidableEq, Repr

/-- Checks the value that is pending. -/
def Pending.resolve (m : Matches) : Pending → Except ArgError Matches
  | none => .ok m
  | waiting _ => .error .invalidValue
  | holding f value => m.accept f value

/-- What a word is. -/
inductive Word
  | escape
  | long (name : String) (attached : Option String)
  | short (letters : List Char)
  | plain (text : String)
  deriving DecidableEq, Repr

/-- Tells what a word is. A single hyphen is a plain word. -/
def Word.ofText (text : String) : Word :=
  match text.toList with
  | ['-', '-'] => escape
  | '-' :: '-' :: cs =>
    let name := String.ofList (cs.takeWhile (· ≠ '='))
    match cs.dropWhile (· ≠ '=') with
    | [] => long name none
    | _ :: value => long name (some (String.ofList value))
  | '-' :: c :: cs => short (c :: cs)
  | _ => plain text

/-- Takes the words after an escape, none of which is an option. -/
def scanOperands (g : Grammar) (m : Matches) : List String → Except ArgError Matches
  | [] => .ok m
  | w :: ws => do scanOperands g (← m.operand g w) ws

/-- Takes an option without attached value, or refuses one that is not known. -/
def longFlag (g : Grammar) (pending : Pending) (m : Matches) (name : String)
    (attached : Option String) : Except ArgError (Pending × Matches) :=
  if name = "help" then
    match attached with
    | some _ => .error .tooManyValues
    | none => (pending.resolve m).bind fun _ => .error .displayHelp
  else
    match g.flags.find? (·.name == name), attached with
    | none, _ => .error .unknownArgument
    | some f, none => (pending.resolve m).map fun m => (.waiting f, m)
    | some f, some value => do
      let m ← pending.resolve m
      pure (.none, ← m.accept f value)

/-- Takes words one after the other, up to a subcommand if there is one. What is pending then
is checked by `Grammar.finish`. -/
def scan (g : Grammar) : Pending → Matches → List String → Except ArgError (Pending × Matches)
  | pending, m, [] => .ok (pending, m)
  | pending, m, w :: ws =>
    match pending, Word.ofText w with
    | .waiting f, .plain value => scan g (.holding f value) m ws
    | pending, .plain word =>
      if g.subcommands.contains word then .ok (pending, { m with subcommand := some (word, ws) })
      else do
        -- a word that has no place is refused before a value that is pending
        let _ ← m.operand g word
        let m ← pending.resolve m
        scan g .none (← m.operand g word) ws
    | pending, .escape => do
      let m ← scanOperands g m ws
      pure (pending, m)
    | pending, .short letters =>
      if letters.head? = some 'h' then (pending.resolve m).bind fun _ => .error .displayHelp
      else .error .unknownArgument
    | pending, .long name attached => do
      let (pending, m) ← longFlag g pending m name attached
      scan g pending m ws

/-! ## Environment -/

/-- Variables with their values. -/
abbrev Environment : Type := List (String × String)

/-- Takes what is still open from the environment. -/
def fillIn (env : Environment) : List Flag → Matches → Except ArgError Matches
  | [], m => .ok m
  | f :: fs, m =>
    match m.value? f.name, f.fallback.bind fun v => env.lookup v with
    | none, some value => do fillIn env fs (← m.accept f value)
    | _, _ => fillIn env fs m

/-- Refuses a command line in which something required is missing. -/
def checkRequired (g : Grammar) (m : Matches) : Except ArgError Matches :=
  if g.flags.any fun f => f.required && (m.value? f.name).isNone then
    .error .missingRequiredArgument
  else if g.operands ≠ .none ∧ m.operands = [] then .error .missingRequiredArgument
  else .ok m

/-- Reads words up to a subcommand. -/
def Grammar.begin (g : Grammar) (words : List String) : Except ArgError (Pending × Matches) :=
  scan g .none {} words

/-- Checks what is pending, takes what is open from the environment, and sees that nothing is
missing. -/
def Grammar.finish (g : Grammar) (env : Environment) (pending : Pending) (m : Matches) :
    Except ArgError Matches := do
  checkRequired g (← fillIn env g.flags (← pending.resolve m))

/-- Reads a command line without subcommands. -/
def Grammar.parse (g : Grammar) (env : Environment) (words : List String) :
    Except ArgError Matches := do
  let (pending, m) ← g.begin words
  g.finish env pending m

end ServiceRegistry.CommandLine
