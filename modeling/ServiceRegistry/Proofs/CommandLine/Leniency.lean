/-
  ServiceRegistry.Proofs.CommandLine.Leniency

  Which of two servers evicts more. An instance stays while it is within every limit of the
  policy, so one policy keeps whatever another keeps exactly if none of its limits is smaller
  (`forall_keeps_iff`). The limits on time are compared as clocks count them, in milliseconds
  modulo 2 ^ 64. Seconds given on the command line are counted in full up to `Duration.longest`;
  beyond it the count begins anew, and a server told to wait longer may wait for less.
-/
import ServiceRegistry.CommandLine.ServerOptions
import ServiceRegistry.Proofs.Inventory.Evictions

namespace ServiceRegistry

/-! ## Seconds as milliseconds -/

namespace Duration

/-- The longest span of whole seconds whose milliseconds a clock can count. -/
def longest : UInt64 := 18446744073709551

theorem toNat_millis_ofSeconds (n : UInt64) :
    (ofSeconds n).millis.toNat = n.toNat * 1000 % UInt64.size := by
  have htotal : (ofSeconds n).totalMillis = n.toNat * 1000 := by
    simp only [totalMillis, ofSeconds, UInt32.toNat_zero, Nat.zero_div, Nat.add_zero]
  rw [millis, htotal, UInt64.toNat_ofNat']

/-- No millisecond is lost exactly up to the longest span. -/
theorem toNat_millis_eq_iff {n : UInt64} :
    (ofSeconds n).millis.toNat = n.toNat * 1000 ↔ n ≤ longest := by
  have hlongest : longest.toNat = 18446744073709551 := rfl
  have hsize : UInt64.size = 18446744073709551616 := rfl
  rw [toNat_millis_ofSeconds, UInt64.le_iff_toNat_le, hlongest, hsize]
  omega

theorem millis_le_of_le {m n : UInt64} (h : m ≤ n) (hn : n ≤ longest) :
    (ofSeconds m).millis ≤ (ofSeconds n).millis := by
  have hm : m ≤ longest := UInt64.le_trans h hn
  rw [UInt64.le_iff_toNat_le, toNat_millis_eq_iff.2 hm, toNat_millis_eq_iff.2 hn]
  exact Nat.mul_le_mul_right 1000 (UInt64.le_iff_toNat_le.1 h)

end Duration

/-! ## Policies compared -/

namespace Policy

/-- No limit of a policy is smaller than that of another. -/
structure AsLenient (p q : Policy) : Prop where
  maxAge : q.maxAge.millis ≤ p.maxAge.millis
  maxFailures : q.maxFailures ≤ p.maxFailures
  successWindow : q.successWindow.millis ≤ p.successWindow.millis

/-- A policy keeps whatever another keeps exactly if it is as lenient. -/
theorem forall_keeps_iff {p q : Policy} :
    (∀ i now, q.keeps now i = true → p.keeps now i = true) ↔ p.AsLenient q := by
  constructor
  · intro h
    have hsince (t : UInt64) : elapsed 0 t = t := by simp [elapsed]
    have hnow (t span : UInt64) : elapsed t t ≤ span := by simp [elapsed]
    -- For each limit there is an instance that is just within that of `q`.
    refine ⟨?_, ?_, ?_⟩
    · let t := q.maxAge.millis
      let i : Instance := .enrolled 1 ⟨"", 0⟩ [] 0
      have hq : q.keeps t i = true :=
        keeps_iff.2 ⟨UInt64.le_of_eq (hsince t), rfl, UInt32.zero_le, nofun⟩
      have hp := (keeps_iff.1 (h i t hq)).1
      rwa [show elapsed i.lastRefresh t = t from hsince t] at hp
    · let i : Instance := { Instance.enrolled 1 ⟨"", 0⟩ [] 0 with failures := q.maxFailures }
      have hq : q.keeps 0 i = true :=
        keeps_iff.2 ⟨hnow 0 _, rfl, UInt32.le_refl _, nofun⟩
      exact (keeps_iff.1 (h i 0 hq)).2.2.1
    · let t := q.successWindow.millis
      let i : Instance := { Instance.enrolled 1 ⟨"", 0⟩ [.status] 0 with lastRefresh := t }
      have hq : q.keeps t i = true := by
        refine keeps_iff.2 ⟨?_, rfl, UInt32.zero_le, fun _ => ?_⟩
        · exact hnow t _
        · exact UInt64.le_of_eq (hsince t)
      have hp := (keeps_iff.1 (h i t hq)).2.2.2 rfl
      rwa [show elapsed i.lastSuccess t = t from hsince t] at hp
  · intro h i now hkeeps
    obtain ⟨hage, henabled, hfailures, hwindow⟩ := keeps_iff.1 hkeeps
    exact keeps_iff.2 ⟨UInt64.le_trans hage h.maxAge, henabled,
      UInt32.le_trans hfailures h.maxFailures,
      fun hprobeable => UInt64.le_trans (hwindow hprobeable) h.successWindow⟩

end Policy

/-! ## Servers compared -/

namespace CommandLine

/-- No limit on instances in the options of a server is smaller than that of another. -/
structure ServerOptions.AsLenient (o o' : ServerOptions) : Prop where
  maxAge : o'.maxAge ≤ o.maxAge
  maxFailures : o'.maxFailures ≤ o.maxFailures
  successWindow : o'.successWindow ≤ o.successWindow

/-- A server whose options are as lenient as those of another keeps whatever that one keeps,
    exactly if the milliseconds of its spans, modulo 2 ^ 64, are no fewer. That is so for spans
    up to the longest that is counted in full, and just for these no millisecond is lost. -/
theorem keeps_of_lenient_options (o o' : ServerOptions) (h : o.AsLenient o') :
    ((∀ i now, o'.policy.keeps now i = true → o.policy.keeps now i = true) ↔
      o'.maxAge.toNat * 1000 % UInt64.size ≤ o.maxAge.toNat * 1000 % UInt64.size ∧
      o'.successWindow.toNat * 1000 % UInt64.size ≤
        o.successWindow.toNat * 1000 % UInt64.size) ∧
    (o.maxAge ≤ Duration.longest → o.successWindow ≤ Duration.longest →
      ∀ i now, o'.policy.keeps now i = true → o.policy.keeps now i = true) ∧
    (o.policy.maxAge.millis.toNat = o.maxAge.toNat * 1000 ↔ o.maxAge ≤ Duration.longest) ∧
    (o.policy.successWindow.millis.toNat = o.successWindow.toNat * 1000 ↔
      o.successWindow ≤ Duration.longest) := by
  refine ⟨?_, fun hage hwindow => ?_, Duration.toNat_millis_eq_iff, Duration.toNat_millis_eq_iff⟩
  · rw [Policy.forall_keeps_iff, ← Duration.toNat_millis_ofSeconds,
      ← Duration.toNat_millis_ofSeconds, ← Duration.toNat_millis_ofSeconds,
      ← Duration.toNat_millis_ofSeconds]
    exact ⟨fun hpolicy => ⟨hpolicy.maxAge, hpolicy.successWindow⟩,
      fun hspans => ⟨hspans.1, h.maxFailures, hspans.2⟩⟩
  · exact Policy.forall_keeps_iff.2 ⟨Duration.millis_le_of_le h.maxAge hage, h.maxFailures,
      Duration.millis_le_of_le h.successWindow hwindow⟩

/-- The options of a server that is given none. -/
def ServerOptions.usual : ServerOptions where
  bind := anyAddress
  port := 5000
  keepalive := 2
  maxFailures := 10
  maxAge := 180
  successWindow := 30
  probeTimeout := 5
  localIp := none
  jwtSecret := none
  tlsCert := none
  tlsKey := none
  prometheusTargets := none
  prometheusConfigTemplate := none
  prometheusConfigFile := none

theorem parse_nothing : ServerOptions.parse [] [] = .ok .usual := by rfl

/-- An instance in the last millisecond of its minute on one server, and on a server that waits
    for as long as can be counted. -/
theorem keeps_of_lenient_options_longest :
    let o : ServerOptions :=
      { ServerOptions.usual with maxAge := 18446744073709551, successWindow := 60 }
    let o' : ServerOptions := { ServerOptions.usual with maxAge := 60, maxFailures := 3 }
    let i : Instance := { Instance.enrolled 1 ⟨"10.0.0.1", 4000⟩ [.tcp] 0 with failures := 3 }
    ServerOptions.parse [] ["--max-age", "18446744073709551", "--success-window=60"] = .ok o ∧
    ServerOptions.parse [("REGISTRAR_MAX_AGE", "60")] ["--max-failures=3"] = .ok o' ∧
    o.AsLenient o' ∧ o.maxAge ≤ Duration.longest ∧ o.successWindow ≤ Duration.longest ∧
    o'.policy.keeps 60000 i = true ∧ o.policy.keeps 60000 i = true := by
  intro o o' i
  have hlenient : o.AsLenient o' := ⟨by decide, by decide, by decide⟩
  have hage : o.maxAge ≤ Duration.longest := by decide
  have hwindow : o.successWindow ≤ Duration.longest := by decide
  have hkeeps : o'.policy.keeps 60000 i = true := by decide
  obtain ⟨-, hall, -⟩ := keeps_of_lenient_options o o' hlenient
  exact ⟨by rfl, by rfl, hlenient, hage, hwindow, hkeeps, hall hage hwindow i 60000 hkeeps⟩

/-- An instance that registered a second ago stays on a server that is given no options, and is
    removed by one that is told to wait for more than half a billion years. -/
theorem lenient_options_evict_more :
    let o : ServerOptions := { ServerOptions.usual with maxAge := 18446744073709552 }
    let i : Instance := .enrolled 1 ⟨"10.0.0.1", 4000⟩ [.tcp] 0
    ServerOptions.parse [] ["--max-age", "18446744073709552"] = .ok o ∧
    ServerOptions.parse [] [] = .ok .usual ∧ o.AsLenient .usual ∧
    o.policy.maxAge.millis = 384 ∧ ServerOptions.usual.policy.keeps 1000 i = true ∧
    o.policy.keeps 1000 i = false ∧ o.policy.assess i 1000 = .evicted .stale := by
  intro o i
  refine ⟨by rfl, parse_nothing, ⟨by decide, by decide, by decide⟩, ?_⟩
  decide

end CommandLine

end ServiceRegistry
