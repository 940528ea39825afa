/-
  ServiceRegistry.Health

  When an instance is fit to stay. The tests are made in a fixed order and the first that
  fails gives the reason: registered again in time, not disabled, few failures, and, for an
  instance that answers probes, a success within the window.
-/
import ServiceRegistry.Instance

namespace ServiceRegistry

/-! ## Durations -/

/-- A span of time in seconds and nanoseconds. -/
structure Duration where
  seconds : UInt64
  nanos : UInt32
  deriving DecidableEq, Repr

namespace Duration

/-- A whole number of seconds. -/
def ofSeconds (n : UInt64) : Duration := ⟨n, 0⟩

/-- All milliseconds of the span. -/
def totalMillis (d : Duration) : Nat := d.seconds.toNat * 1000 + d.nanos.toNat / 1000000

/-- The milliseconds modulo 2 ^ 64, as clocks count them. -/
def millis (d : Duration) : UInt64 := UInt64.ofNat d.totalMillis

end Duration

/-- The time from one reading to another, zero if the readings are reversed. -/
def elapsed (since now : UInt64) : UInt64 := if now < since then 0 else now - since

theorem toNat_elapsed (since now : UInt64) :
    (elapsed since now).toNat = now.toNat - since.toNat := by
  unfold elapsed
  split
  · rename_i h; rw [UInt64.lt_iff_toNat_lt] at h; simp; omega
  · rename_i h
    rw [UInt64.lt_iff_toNat_lt] at h
    exact UInt64.toNat_sub_of_le _ _ (UInt64.le_iff_toNat_le.2 (by omega))

/-! ## Conditions -/

/-- Why an instance is removed. -/
inductive EvictionReason
  | stale
  | disabled
  | excessiveFailures
  | noRecentSuccess
  deriving DecidableEq, Repr

namespace EvictionReason

/-- The reasons in the order of their tests. -/
def all : List EvictionReason := [stale, disabled, excessiveFailures, noRecentSuccess]

/-- The name that messages use. -/
def name : EvictionReason → String
  | stale => "stale"
  | disabled => "disabled"
  | excessiveFailures => "excessive_failures"
  | noRecentSuccess => "no_recent_success"

end EvictionReason

/-- How an instance fares. -/
inductive Condition
  | live
  | suspect
  | evicted (reason : EvictionReason)
  deriving DecidableEq, Repr

/-! ## Policies -/

/-- The limits within which an instance stays. -/
structure Policy where
  maxAge : Duration := .ofSeconds 180
  maxFailures : UInt32 := 10
  successWindow : Duration := .ofSeconds 30
  deriving DecidableEq, Repr

namespace Policy

/-- The reason to remove an instance at a clock reading. -/
def verdict? (p : Policy) (i : Instance) (now : UInt64) : Option EvictionReason :=
  if elapsed i.lastRefresh now > p.maxAge.millis then some .stale
  else if i.disabled then some .disabled
  else if i.failures > p.maxFailures then some .excessiveFailures
  else if i.isProbeable && elapsed i.lastSuccess now > p.successWindow.millis then
    some .noRecentSuccess
  else none

/-- How an instance fares at a clock reading. -/
def assess (p : Policy) (i : Instance) (now : UInt64) : Condition :=
  match p.verdict? i now with
  | some reason => .evicted reason
  | none => if i.failures > 0 then .suspect else .live

/-- The instance may stay. -/
def keeps (p : Policy) (now : UInt64) (i : Instance) : Bool := (p.verdict? i now).isNone

theorem assess_eq_evicted {p : Policy} {i : Instance} {now : UInt64} {r : EvictionReason} :
    p.assess i now = .evicted r ↔ p.verdict? i now = some r := by
  unfold assess
  cases p.verdict? i now with
  | some s => simp
  | none => simp only [reduceCtorEq, iff_false]; split <;> simp

end Policy

end ServiceRegistry
