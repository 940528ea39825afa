/-
  ServiceRegistry.CommandLine.Operator

  What operators see of a registry: listings as tables, tokens, and whether shutdowns were
  taken. A command ends with a code, with lines that it prints and with complaints.
-/
import ServiceRegistry.Access.Token
import ServiceRegistry.Client.Probe
import ServiceRegistry.Client.Registry
import ServiceRegistry.CommandLine.DotEnv
import ServiceRegistry.CommandLine.OperatorOptions
import ServiceRegistry.Text.Quoted

namespace ServiceRegistry.CommandLine

open Client
open Message (Listing ListResponse)

/-! ## Outcomes -/

/-- A line about something that went wrong. The text of a failed exchange depends on the
network and is left open. -/
structure Complaint where
  lead : String
  cause : Option String
  deriving DecidableEq, Repr

/-- The line, if its text is settled. -/
def Complaint.text? (c : Complaint) : Option String := c.cause.map (c.lead ++ ·)

/-- How a command ends. -/
structure Outcome where
  code : Nat := 0
  /-- Lines that are printed. -/
  printed : List String := []
  complaints : List Complaint := []
  deriving DecidableEq, Repr

namespace Outcome

/-- Everything went well. -/
def success (printed : List String) : Outcome := { printed := printed }

/-- The command ends with an error. -/
def failure (cause : Option String) : Outcome := { code := 1, complaints := [⟨"Error: ", cause⟩] }

/-- The command ends with a message. -/
def failureText (message : String) : Outcome := failure (some (Text.quoted message))

/-- The command ends with the error of a client. -/
def clientFailure : ClientError → Outcome
  | .unreachable => failure none
  | .refused status message =>
    failure (some ("Api \x7b status: " ++ toString status ++ ", message: " ++ Text.quoted message
      ++ " \x7d"))

/-- One outcome after the other. -/
def append (a b : Outcome) : Outcome :=
  ⟨b.code, a.printed ++ b.printed, a.complaints ++ b.complaints⟩

end Outcome

/-- The code with which a command line ends that is not accepted. -/
def ArgError.code : ArgError → Nat
  | displayHelp => 0
  | _ => 2

/-! ## Tables -/

/-- The text with blanks after it up to a width in characters. -/
def padded (width : Nat) (text : String) : String :=
  text ++ String.ofList (List.replicate (width - text.length) ' ')

/-- A line of a table. -/
def tableRow (service path address capabilities : String) : String :=
  padded 30 service ++ " " ++ padded 25 path ++ " " ++ padded 22 address ++ " "
    ++ padded 20 capabilities

/-- The lines of one listing, a line for each address. -/
def listingRows (l : Listing) : List String :=
  l.addresses.map fun a =>
    tableRow l.service.name (l.service.path?.getD "-") (Endpoint.text ⟨a.host, a.port⟩)
      (",".intercalate (a.capabilities.map (·.name)))

/-- The table of services and their addresses. -/
def table (r : ListResponse) : List String :=
  tableRow "Service" "Deploy Path" "Address" "API Types" :: String.ofList (List.replicate 97 '-')
    :: r.services.flatMap listingRows

/-! ## Commands -/

/-- The text that refuses the name of a capability. -/
def invalidCapability (text : String) : String :=
  "Invalid api type " ++ Text.quoted text ++ ". Valid types: "
    ++ ", ".intercalate (Capability.all.map (·.name))

/-- The line about a shutdown that was asked for. -/
def shutdownRequested (name : String) : String := "Shutdown requested: " ++ name

/-- How long a token is good for, at most as long as a span can be. -/
def tokenSpan (hours : UInt64) : Duration :=
  .ofSeconds (UInt64.ofNat (min (hours.toNat * 3600) (UInt64.size - 1)))

variable {σ : Type} (h : Handle) (net : Network σ)

/-- Lists services. -/
def listServices (name : String) : Activity σ Outcome := do
  match ← h.list net name with
  | .ok r => pure (.success (table r))
  | .error e => pure (.clientFailure e)

/-- Finds instances. -/
def lookupInstances (capability path name : String) : Activity σ Outcome := do
  match Capability.read? capability with
  | none => pure (.failureText (invalidCapability capability))
  | some c =>
    match ← h.target net ⟨path, name, c⟩ with
    | .error e => pure (.clientFailure e)
    | .ok r =>
      if r.services = [] then pure (.failureText "No matching instances")
      else pure (.success (table r))

/-- Asks for the shutdown of each service in turn; counts those that failed. -/
def askServices : List String → Activity σ (Nat × Outcome)
  | [] => pure (0, .success [])
  | name :: names => do
    let answer ← h.shutdown net name
    let (failed, rest) ← askServices names
    match answer with
    | .ok _ => pure (failed, .append (.success [shutdownRequested name]) rest)
    | .error e =>
      let complaint : Complaint := ⟨"Shutdown of " ++ name ++ " failed: ", e.message?⟩
      pure (failed + 1, .append { complaints := [complaint] } rest)

/-- Asks for the shutdown of services. -/
def shutdownServices (names : List String) : Activity σ Outcome := do
  let (failed, outcome) ← askServices h net names
  if failed = 0 then pure outcome
  else
    let message := toString failed ++ " of " ++ toString names.length ++ " shutdowns failed"
    pure (outcome.append (.failureText message))

/-- Asks one instance to shut down. -/
def stopInstance (address : String) : Activity σ Outcome := do
  let call : Call :=
    { origin := "https://" ++ address, request := { method := "GET", target := shutdownPath } }
  match ← net call with
  | none => pure (.failure none)
  | some r =>
    if Net.isSuccess r.status then pure (.success [shutdownRequested address])
    else pure (.failureText (address ++ " answered " ++ Net.statusText r.status))

/-- Does what an operator wants. Tokens are made at some time, in seconds of the Unix epoch. -/
def Command.run (now : UInt64) : Command → Activity σ Outcome
  | .list name => listServices h net name
  | .lookup capability path name => lookupInstances h net capability path name
  | .shutdown names => shutdownServices h net names
  | .stop address => stopInstance net address
  | .token subject roles hours secret =>
    pure (.success [(Access.Claims.lasting subject roles now (tokenSpan hours)).sign secret])

/-- Does what the options say. -/
def OperatorOptions.run (net : Network σ) (now : UInt64) (o : OperatorOptions) :
    Activity σ Outcome :=
  o.command.run (.ofAddress o.registry o.token) net now

/-- Does what a command line says. Variables are taken from the environment and, where they
are not set there, from a file. -/
def operate (net : Network σ) (now : UInt64) (env : Environment) (file : Option String)
    (words : List String) : Except ArgError (Activity σ Outcome) :=
  let env := match file with
    | some text => DotEnv.extend env text
    | none => env
  (OperatorOptions.parse env words).map (·.run net now)

end ServiceRegistry.CommandLine
