import ServiceRegistry.Access.Claims
import ServiceRegistry.Access.PublicKey
import ServiceRegistry.Access.Role
import ServiceRegistry.Access.Token
import ServiceRegistry.Activity
import ServiceRegistry.Capability
import ServiceRegistry.Client.Address
import ServiceRegistry.Client.Exchange
import ServiceRegistry.Client.KeepAlive
import ServiceRegistry.Client.Probe
import ServiceRegistry.Client.Registry
import ServiceRegistry.CommandLine.Args
import ServiceRegistry.CommandLine.DotEnv
import ServiceRegistry.CommandLine.Operator
import ServiceRegistry.CommandLine.OperatorOptions
import ServiceRegistry.CommandLine.ServerOptions
import ServiceRegistry.Decimal.Binary64
import ServiceRegistry.Decimal.Shortest
import ServiceRegistry.Digest.Hmac
import ServiceRegistry.Digest.Sha256
import ServiceRegistry.Fleet
import ServiceRegistry.Health
import ServiceRegistry.Instance
import ServiceRegistry.Inventory.Basic
import ServiceRegistry.Inventory.Sweep
import ServiceRegistry.Inventory.Views
import ServiceRegistry.Json.Basic
import ServiceRegistry.Json.Decode
import ServiceRegistry.Json.Fault
import ServiceRegistry.Json.Numeral
import ServiceRegistry.Json.Raw
import ServiceRegistry.Json.Record
import ServiceRegistry.Json.Whole
import ServiceRegistry.Main
import ServiceRegistry.Message.Basic
import ServiceRegistry.Message.Decode
import ServiceRegistry.Message.Encode
import ServiceRegistry.Metrics
import ServiceRegistry.Net.Http
import ServiceRegistry.Net.Ip
import ServiceRegistry.Net.MediaType
import ServiceRegistry.Net.Status
import ServiceRegistry.Proofs.Acceptance
import ServiceRegistry.Proofs.Access.Token
import ServiceRegistry.Proofs.Client.Bookkeeping
import ServiceRegistry.Proofs.Client.Faithful
import ServiceRegistry.Proofs.Client.KeepAlive
import ServiceRegistry.Proofs.Client.Origin
import ServiceRegistry.Proofs.Client.Remote
import ServiceRegistry.Proofs.Client.Whereabouts
import ServiceRegistry.Proofs.Client.Wire
import ServiceRegistry.Proofs.CommandLine.Leniency
import ServiceRegistry.Proofs.CommandLine.Minting
import ServiceRegistry.Proofs.Inventory.Action
import ServiceRegistry.Proofs.Inventory.Batch
import ServiceRegistry.Proofs.Inventory.Candidates
import ServiceRegistry.Proofs.Inventory.Change
import ServiceRegistry.Proofs.Inventory.Effect
import ServiceRegistry.Proofs.Inventory.Evictions
import ServiceRegistry.Proofs.Inventory.History
import ServiceRegistry.Proofs.Inventory.Identity
import ServiceRegistry.Proofs.Inventory.Instances
import ServiceRegistry.Proofs.Inventory.Probing
import ServiceRegistry.Proofs.Inventory.Provenance
import ServiceRegistry.Proofs.Inventory.Registration
import ServiceRegistry.Proofs.Inventory.Removal
import ServiceRegistry.Proofs.Inventory.Renewal
import ServiceRegistry.Proofs.Inventory.Shown
import ServiceRegistry.Proofs.Inventory.Standing
import ServiceRegistry.Proofs.Inventory.Sweeping
import ServiceRegistry.Proofs.Inventory.Tidy
import ServiceRegistry.Proofs.Inventory.Times
import ServiceRegistry.Proofs.Inventory.Visibility
import ServiceRegistry.Proofs.Inventory.WellFormed
import ServiceRegistry.Proofs.Json.RoundTrip
import ServiceRegistry.Proofs.Json.Source
import ServiceRegistry.Proofs.Message.Abbreviations
import ServiceRegistry.Proofs.Message.Edits
import ServiceRegistry.Proofs.Message.Kinds
import ServiceRegistry.Proofs.Message.RoundTrip
import ServiceRegistry.Proofs.Message.Unedited
import ServiceRegistry.Proofs.Net.Colons
import ServiceRegistry.Proofs.Net.Ip
import ServiceRegistry.Proofs.PublishedHost
import ServiceRegistry.Proofs.Resolution
import ServiceRegistry.Proofs.Scrape.Configuration
import ServiceRegistry.Proofs.Scrape.Drafts
import ServiceRegistry.Proofs.Scrape.Ownership
import ServiceRegistry.Proofs.Scrape.Upkeep
import ServiceRegistry.Proofs.Server.Admission
import ServiceRegistry.Proofs.Server.Calls
import ServiceRegistry.Proofs.Server.Commuting
import ServiceRegistry.Proofs.Server.Echoing
import ServiceRegistry.Proofs.Server.Episodes
import ServiceRegistry.Proofs.Server.InStep
import ServiceRegistry.Proofs.Server.Jobs
import ServiceRegistry.Proofs.Server.Leaving
import ServiceRegistry.Proofs.Server.Lookup
import ServiceRegistry.Proofs.Server.Overtaking
import ServiceRegistry.Proofs.Server.PathScope
import ServiceRegistry.Proofs.Server.Promises
import ServiceRegistry.Proofs.Server.Refusal
import ServiceRegistry.Proofs.Server.Registering
import ServiceRegistry.Proofs.Server.ShuttingDown
import ServiceRegistry.Proofs.Server.Views
import ServiceRegistry.Proofs.Supervision.Outcomes
import ServiceRegistry.Proofs.Supervision.Rounds
import ServiceRegistry.Proofs.Supervision.Stopping
import ServiceRegistry.Proofs.Supervision.Streak
import ServiceRegistry.Proofs.Supervision.Undisturbed
import ServiceRegistry.Proofs.Supervision.Unprobed
import ServiceRegistry.Proofs.Targets
import ServiceRegistry.Proofs.Text.Base64Url
import ServiceRegistry.Proofs.Text.Digits
import ServiceRegistry.Proofs.Text.Lenient
import ServiceRegistry.Proofs.Text.Lines
import ServiceRegistry.Proofs.Text.Segments
import ServiceRegistry.Proofs.World.Alone
import ServiceRegistry.Proofs.World.Atomic
import ServiceRegistry.Proofs.World.Crew
import ServiceRegistry.Proofs.World.Freshness
import ServiceRegistry.Proofs.World.Ghost
import ServiceRegistry.Proofs.World.Interlude
import ServiceRegistry.Proofs.World.Publishing
import ServiceRegistry.Proofs.World.Readings
import ServiceRegistry.Proofs.World.Refreshes
import ServiceRegistry.Proofs.World.Restraint
import ServiceRegistry.Proofs.World.Schedule
import ServiceRegistry.Proofs.World.Serial
import ServiceRegistry.Proofs.World.Steps
import ServiceRegistry.Proofs.Yaml.Block
import ServiceRegistry.Proofs.Yaml.Scalar
import ServiceRegistry.PublishedHost
import ServiceRegistry.RegistryError
import ServiceRegistry.Resolution
import ServiceRegistry.Scrape.FileSystem
import ServiceRegistry.Scrape.Files
import ServiceRegistry.Server.Handlers
import ServiceRegistry.Server.Operation
import ServiceRegistry.Server.Respond
import ServiceRegistry.Service
import ServiceRegistry.Supervision.Loop
import ServiceRegistry.Supervision.Pass
import ServiceRegistry.Supervision.Supervisor
import ServiceRegistry.Text.Alphanumeric
import ServiceRegistry.Text.Ascii
import ServiceRegistry.Text.Base64Url
import ServiceRegistry.Text.CodePoints
import ServiceRegistry.Text.Printable
import ServiceRegistry.Text.Quoted
import ServiceRegistry.Text.Segments
import ServiceRegistry.Text.Utf8
import ServiceRegistry.World
import ServiceRegistry.Yaml.Block
import ServiceRegistry.Yaml.Scalar
