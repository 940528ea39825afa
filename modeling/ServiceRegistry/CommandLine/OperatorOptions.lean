/-
  ServiceRegistry.CommandLine.OperatorOptions

  The command line of operators: which registry to talk to, and what is to be done.
-/
import ServiceRegistry.CommandLine.Args

namespace ServiceRegistry.CommandLine

/-- What an operator wants done. -/
inductive Command
  /-- List services, all of them or those with a name. -/
  | list (name : String)
  /-- Find instances by a capability, which is given by its name. -/
  | lookup (capability path name : String)
  /-- Ask every instance of some services to shut down. -/
  | shutdown (names : List String)
  /-- Ask one instance to shut down, whether or not a registry knows it. -/
  | stop (address : String)
  /-- Make a token. -/
  | token (subject : String) (roles : List Access.Role) (hours : UInt64) (secret : String)
  deriving DecidableEq, Repr

/-! ## Grammars -/

/-- An option with any text as its value. -/
def textFlag (name : String) : Flag := { name := name }

/-- An option that must be given and has any text as its value. -/
def requiredFlag (name : String) : Flag := { name := name, required := true }

namespace Command

/-- The commands and what may follow each. -/
def grammars : List (String × Grammar) :=
  [("list", { flags := [textFlag "name"] }),
    ("lookup", { flags := [requiredFlag "api-type", textFlag "deploy-path", textFlag "name"] }),
    ("shutdown", { flags := [], operands := .many }),
    ("stop", { flags := [], operands := .one }),
    ("token",
      { flags :=
          [requiredFlag "subject", ⟨"role", .role, none, true, true⟩,
            ⟨"ttl-hours", .natural UInt64.size, none, false, false⟩,
            ⟨"secret", .text, some "REGISTRAR_JWT_SECRET", false, true⟩] })]

/-- The word that asks for help on a command. -/
def helpWord : String := "help"

/-- The words that may stand where a command is expected. -/
def words : List String := grammars.map (·.1) ++ [helpWord]

/-- How many hours a token is good for; a day unless it is said. -/
def hours (given : Option Nat) : UInt64 := UInt64.ofNat (given.getD 24)

/-- The command that was matched. -/
def ofMatches (name : String) (m : Matches) : Command :=
  let text (flag : String) : String := (m.value? flag).getD ""
  match name with
  | "list" => list (text "name")
  | "lookup" => lookup (text "api-type") (text "deploy-path") (text "name")
  | "shutdown" => shutdown m.operands
  | "stop" => stop (m.operands.headD "")
  | _ =>
    token (text "subject") ((m.allValues "role").filterMap Access.Role.read?)
      (hours ((m.value? "ttl-hours").bind (Text.readUnsigned? UInt64.size))) (text "secret")

/-- Tells what was asked: help on everything or on one command. -/
def help (topics : List String) : ArgError :=
  match topics with
  | [] => .displayHelp
  | [topic] => if words.contains topic then .displayHelp else .invalidSubcommand
  | _ => .invalidSubcommand

/-- Reads the words after the name of a command. -/
def parse (env : Environment) (name : String) (rest : List String) : Except ArgError Command :=
  if name = helpWord then .error (help rest)
  else match grammars.lookup name with
    | none => .error .invalidSubcommand
    | some g => (g.parse env rest).map (ofMatches name)

end Command

/-! ## Options -/

/-- What an operator says. -/
structure OperatorOptions where
  registry : String
  token : Option String
  command : Command
  deriving DecidableEq, Repr

namespace OperatorOptions

/-- The registry that is meant unless one is named. -/
def defaultRegistry : String := "localhost:5000"

/-- What may stand before a command. -/
def grammar : Grammar where
  flags :=
    [⟨"registry", .text, some "REGISTRAR_ADDR", false, false⟩,
      ⟨"token", .text, some "REGISTRAR_TOKEN", false, false⟩]
  subcommands := Command.words

/-- Reads a command line. A mistake after the command is found before one that is left over
from the options in front of it. -/
def parse (env : Environment) (words : List String) : Except ArgError OperatorOptions := do
  let (pending, m) ← grammar.begin words
  match m.subcommand with
  | none =>
    let _ ← grammar.finish env pending m
    throw .missingSubcommand
  | some (name, rest) =>
    let command ← Command.parse env name rest
    let m ← grammar.finish env pending m
    pure ⟨(m.value? "registry").getD defaultRegistry, m.value? "token", command⟩

end OperatorOptions

end ServiceRegistry.CommandLine
