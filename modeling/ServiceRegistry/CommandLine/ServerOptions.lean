/-
  ServiceRegistry.CommandLine.ServerOptions

  The options of the registry server and what follows from them.
-/
import ServiceRegistry.CommandLine.Args
import ServiceRegistry.Health

namespace ServiceRegistry.CommandLine

open Net (Ip)

/-- The options of the server. Spans of time are in seconds. -/
structure ServerOptions where
  bind : Ip
  port : UInt16
  /-- Time between passes of the supervisor. -/
  keepalive : UInt64
  maxFailures : UInt32
  maxAge : UInt64
  successWindow : UInt64
  probeTimeout : UInt64
  localIp : Option Ip
  jwtSecret : Option String
  tlsCert : Option String
  tlsKey : Option String
  prometheusTargets : Option String
  prometheusConfigTemplate : Option String
  prometheusConfigFile : Option String
  deriving DecidableEq, Repr

namespace ServerOptions

/-- The options as they may be written. -/
def grammar : Grammar where
  flags :=
    [⟨"bind", .ip, some "REGISTRAR_BIND", false, false⟩,
      ⟨"port", .signed UInt16.size, some "REGISTRAR_PORT", false, false⟩,
      ⟨"keepalive", .natural UInt64.size, some "REGISTRAR_KEEPALIVE", false, false⟩,
      ⟨"max-failures", .signed UInt32.size, some "REGISTRAR_MAX_FAILURES", false, false⟩,
      ⟨"max-age", .natural UInt64.size, some "REGISTRAR_MAX_AGE", false, false⟩,
      ⟨"success-window", .natural UInt64.size, some "REGISTRAR_SUCCESS_WINDOW", false, false⟩,
      ⟨"probe-timeout", .natural UInt64.size, some "REGISTRAR_PROBE_TIMEOUT", false, false⟩,
      ⟨"local-ip", .ip, some "REGISTRAR_LOCAL_IP", false, false⟩,
      ⟨"jwt-secret", .text, some "REGISTRAR_JWT_SECRET", false, false⟩,
      ⟨"tls-cert", .path, some "REGISTRAR_TLS_CERT", false, false⟩,
      ⟨"tls-key", .path, some "REGISTRAR_TLS_KEY", false, false⟩,
      ⟨"prometheus-targets", .path, some "REGISTRAR_PROMETHEUS_TARGETS", false, false⟩,
      ⟨"prometheus-config-template", .path, some "REGISTRAR_PROMETHEUS_CONFIG_TEMPLATE", false,
        false⟩,
      ⟨"prometheus-config-file", .path, some "REGISTRAR_PROMETHEUS_CONFIG_FILE", false, false⟩]

/-- The number given for an option, or a default. -/
def number (m : Matches) (name : String) (bound default : Nat) : Nat :=
  ((m.value? name).bind (Text.readSigned? bound)).getD default

/-- The address on which all interfaces listen. -/
def anyAddress : Ip := .v4 ⟨0, 0, 0, 0⟩

/-- The options that were matched. -/
def ofMatches (m : Matches) : ServerOptions where
  bind := ((m.value? "bind").bind Ip.ofText?).getD anyAddress
  port := UInt16.ofNat (number m "port" UInt16.size 5000)
  keepalive := UInt64.ofNat (number m "keepalive" UInt64.size 2)
  maxFailures := UInt32.ofNat (number m "max-failures" UInt32.size 10)
  maxAge := UInt64.ofNat (number m "max-age" UInt64.size 180)
  successWindow := UInt64.ofNat (number m "success-window" UInt64.size 30)
  probeTimeout := UInt64.ofNat (number m "probe-timeout" UInt64.size 5)
  localIp := (m.value? "local-ip").bind Ip.ofText?
  jwtSecret := m.value? "jwt-secret"
  tlsCert := m.value? "tls-cert"
  tlsKey := m.value? "tls-key"
  prometheusTargets := m.value? "prometheus-targets"
  prometheusConfigTemplate := m.value? "prometheus-config-template"
  prometheusConfigFile := m.value? "prometheus-config-file"

/-- Reads the options. Certificate and key need each other. -/
def parse (env : Environment) (words : List String) : Except ArgError ServerOptions := do
  let o := ofMatches (← grammar.parse env words)
  if o.tlsCert.isSome ≠ o.tlsKey.isSome then .error .missingRequiredArgument else .ok o

/-! ## What follows -/

/-- The address and port to listen on. -/
def listenAddress (o : ServerOptions) : String :=
  let host := match o.bind with
    | .v4 _ => o.bind.text
    | .v6 _ => "[" ++ o.bind.text ++ "]"
  host ++ ":" ++ toString o.port.toNat

/-- The policy by which instances stay. -/
def policy (o : ServerOptions) : Policy where
  maxAge := .ofSeconds o.maxAge
  maxFailures := o.maxFailures
  successWindow := .ofSeconds o.successWindow

/-- The time between passes, at least a second. -/
def passPeriod (o : ServerOptions) : Duration :=
  .ofSeconds (if o.keepalive < 1 then 1 else o.keepalive)

/-- How long to wait for the answer to a probe. -/
def probeLimit (o : ServerOptions) : Duration := .ofSeconds o.probeTimeout

end ServerOptions

end ServiceRegistry.CommandLine
