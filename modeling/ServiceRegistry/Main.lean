/-
  ServiceRegistry.Main

  The program of operators: takes the words, the environment and a file of variables, and
  writes what the command prints. It is connected to no network, so that every exchange
  fails; tokens need none.
-/
import ServiceRegistry.CommandLine.Operator
import Std.Time.DateTime.Timestamp

namespace ServiceRegistry.CommandLine

/-- The variables that options may be taken from. -/
def operatorVariables : List String :=
  (OperatorOptions.grammar.flags ++ Command.grammars.flatMap (·.2.flags)).filterMap (·.fallback)

/-- The values of the variables that are set. -/
def readEnvironment (names : List String) : IO Environment := do
  let values ← names.mapM fun name => do
    return (← IO.getEnv name).map fun value => (name, value)
  return values.filterMap id

/-- The file of variables, if there is one. -/
def readVariables : IO (Option String) :=
  try
    return some (← IO.FS.readFile ".env")
  catch _ =>
    return none

/-- The time in seconds of the Unix epoch. -/
def unixTime : IO UInt64 := do
  let now ← Std.Time.Timestamp.now
  return UInt64.ofNat now.toSecondsSinceUnixEpoch.val.toNat

/-- The line for a complaint. -/
def Complaint.line (c : Complaint) : String := c.text?.getD (c.lead ++ "nobody answers")

end ServiceRegistry.CommandLine

open ServiceRegistry.CommandLine in
/-- Runs the command that the words stand for. -/
def main (words : List String) : IO UInt32 := do
  let env ← readEnvironment operatorVariables
  let network := ServiceRegistry.Client.Network.silent Unit
  match operate network (← unixTime) env (← readVariables) words with
  | .error e =>
    if e.code = 0 then
      IO.println (" ".intercalate ("Commands:" :: Command.words))
    else
      IO.eprintln e.name
    return UInt32.ofNat e.code
  | .ok activity =>
    let (outcome, _) := activity.run ()
    for line in outcome.printed do
      IO.println line
    for complaint in outcome.complaints do
      IO.eprintln complaint.line
    return UInt32.ofNat outcome.code
