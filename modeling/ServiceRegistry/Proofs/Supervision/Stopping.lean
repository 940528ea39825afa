/-
  ServiceRegistry.Proofs.Supervision.Stopping

  What a repeated work still does after it has been told to stop. The passes of a supervisor and
  the rounds of a keep-alive are such work. The loop looks at the stop value only when it is
  not at work, and when a tick is due by then it may take the tick instead. So work may begin
  after the stop, but only straight after other work that was not done in time: an idle loop
  stops, and so does one whose work always takes less than the period.

  A loop is followed turn by turn, with the stint that was done last beside it
  (`chain_repeatWork`). The signal to stop stays among the signals to come until it is heeded
  (`Stops.heeded`), so in every turn after the stop the signal is ready.
-/
import Mathlib.Data.List.Chain
import ServiceRegistry.Supervision.Supervisor

namespace ServiceRegistry.Supervision

/-! ## The signal to stop -/

/-- From a time on the stop value is true for good, or nobody can set it any more. Earlier
    signals may have set it in any way. -/
def Stops (time : Nat) (signals : List (Nat × Signal)) : Prop :=
  ∃ before stop after, signals = before ++ (time, stop) :: after ∧ (∀ x ∈ before, x.1 ≤ time) ∧
    (stop = .dropped ∨ stop = .set true ∧ ∀ x ∈ after, x.2 ≠ .set false)

section

variable {time now : Nat} {signals : List (Nat × Signal)}

/-- Some signal is there at the time of the stop. -/
theorem Stops.head (h : Stops time signals) :
    ∃ first what rest, signals = (first, what) :: rest ∧ first ≤ time := by
  obtain ⟨before, stop, after, rfl, hbefore, -⟩ := h
  cases before with
  | nil => exact ⟨time, stop, after, rfl, Nat.le_refl _⟩
  | cons x before => exact ⟨x.1, x.2, _, rfl, hbefore x List.mem_cons_self⟩

theorem takeValues_ne_false (now : Nat) (h : ∀ x ∈ signals, x.2 ≠ .set false) :
    (takeValues now signals).1 ≠ some false := by
  fun_induction takeValues now signals with
  | case1 t stop rest hle last later hrest ih =>
    obtain ⟨hstop, hall⟩ := List.forall_mem_cons.1 h
    have hlast : last ≠ some false := by
      have hnot := ih hall
      rwa [hrest] at hnot
    cases last with
    | none => simpa using hstop
    | some value => exact hlast
  | case2 => exact nofun
  | case3 => exact nofun

/-- Taking the values that are there either gives the stop or leaves it to come. -/
theorem Stops.takeValues (h : Stops time signals) (now : Nat) :
    (takeValues now signals).1 = some true ∨ Stops time (takeValues now signals).2 := by
  obtain ⟨before, stop, after, rfl, hbefore, hstop⟩ := h
  have hstops : Stops time (before ++ (time, stop) :: after) :=
    ⟨before, stop, after, rfl, hbefore, hstop⟩
  induction before with
  | nil =>
    rcases hstop with rfl | ⟨rfl, hafter⟩
    · exact .inr hstops
    · rw [List.nil_append, Supervision.takeValues]
      split
      · -- What was set after the stop is no `false`, so the last value is `true`.
        left
        have hlast := takeValues_ne_false now hafter
        generalize Supervision.takeValues now after = taken at hlast
        obtain ⟨last, later⟩ := taken
        cases last with
        | none => rfl
        | some value =>
          cases value with
          | true => rfl
          | false => exact absurd rfl hlast
      · exact .inr hstops
  | cons x before ih =>
    obtain ⟨t, what⟩ := x
    obtain ⟨-, hrest⟩ := List.forall_mem_cons.1 hbefore
    cases what with
    | dropped => exact .inr hstops
    | set value =>
      rw [List.cons_append, Supervision.takeValues]
      split
      · have htaken := ih hrest ⟨before, stop, after, rfl, hrest, hstop⟩
        generalize Supervision.takeValues now (before ++ (time, stop) :: after) = taken at htaken
        obtain ⟨last, later⟩ := taken
        rcases htaken with rfl | hlater
        · exact .inl rfl
        · exact .inr hlater
      · exact .inr hstops

/-- A loop that goes on after heeding signals has not heeded the stop. -/
theorem Stops.heeded {t t' : Timer} (h : Stops time t.signals) (hgoes : t.heeded? now = some t') :
    t'.now = now ∧ t'.due = t.due ∧ Stops time t'.signals := by
  have htaken := h.takeValues now
  unfold Timer.heeded? at hgoes
  generalize Supervision.takeValues now t.signals = taken at htaken hgoes
  obtain ⟨last, later⟩ := taken
  rcases htaken with rfl | hlater
  · cases hgoes
  · cases last with
    | none => cases hgoes
    | some value =>
      cases value with
      | true => cases hgoes
      | false =>
        cases hgoes
        exact ⟨rfl, rfl, hlater⟩

/-! ## One turn -/

/-- Work begins with a tick. After the stop it begins at once, and because the tick was taken
    although the signal was ready. -/
theorem Stops.begins {t : Timer} {c : Choice} {start : Nat} (h : Stops time t.signals)
    (hturn : t.turn c = .begin start) :
    start = max t.now t.due ∧ (time < start → start = t.now ∧ c = .tick) := by
  obtain ⟨first, what, rest, hsignals, hfirst⟩ := h.head
  simp only [Timer.turn, hsignals] at hturn
  split at hturn
  case isTrue hlt =>
    cases hturn
    exact ⟨rfl, fun hlate => by omega⟩
  case isFalse hlt =>
    split at hturn
    · cases hturn
    case isFalse hge =>
      cases c with
      | signal => cases hturn
      | tick =>
        cases hturn
        exact ⟨rfl, fun hlate => ⟨by omega, rfl⟩⟩

/-- A signal is heeded no later than the next tick, and after the stop at once. -/
theorem Stops.heeds {t : Timer} {c : Choice} (h : Stops time t.signals)
    (hturn : t.turn c = .heed now) :
    now ≤ max t.now t.due ∧ (time < now → now = t.now) := by
  obtain ⟨first, what, rest, hsignals, hfirst⟩ := h.head
  simp only [Timer.turn, hsignals] at hturn
  split at hturn
  · cases hturn
  case isFalse hlt =>
    split at hturn
    case isTrue hgt =>
      cases hturn
      exact ⟨by omega, fun hlate => by omega⟩
    case isFalse hge =>
      cases c with
      | tick => cases hturn
      | signal =>
        cases hturn
        exact ⟨by omega, fun hlate => by omega⟩

/-! ## All turns -/

section

variable {σ : Type} {period : Nat} {work : σ → Nat × σ}

/-- What holds of a loop and of its last stint in every turn relates each stint to the next. -/
theorem chain_repeatWork {P : Timer → Stint → Prop} {R : Stint → Stint → Prop}
    {choices : List Choice}
    (hbegin : ∀ t last, ∀ c ∈ choices, ∀ start s, P t last → t.turn c = .begin start →
      let new : Stint := ⟨start, start + (work s).1⟩
      R last new ∧ P (t.worked period start (work s).1) new)
    (hheed : ∀ t t' last c now, P t last → t.turn c = .heed now → t.heeded? now = some t' →
      P t' last)
    (t : Timer) (last : Stint) (s : σ) (h : P t last) :
    (last :: (repeatWork period work choices t s).1).IsChain R := by
  induction choices generalizing t last s with
  | nil => exact .singleton _
  | cons c cs ih =>
    have hlater := ih (fun t last c hc => hbegin t last c (List.mem_cons_of_mem _ hc))
    unfold repeatWork
    cases hturn : t.turn c with
    | begin start =>
      obtain ⟨hrelated, hkept⟩ := hbegin t last c List.mem_cons_self start s h hturn
      exact .cons_cons hrelated (hlater _ _ (work s).2 hkept)
    | heed now =>
      dsimp only
      cases hgoes : t.heeded? now with
      | none => exact .singleton _
      | some t' => exact hlater t' last s (hheed t t' last c now h hturn hgoes)

theorem forall_of_chain {α : Type} {Q : α → Prop} {x : α} {xs : List α}
    (h : (x :: xs).IsChain fun _ y => Q y) : ∀ y ∈ xs, Q y := by
  induction xs generalizing x with
  | nil => exact nofun
  | cons y ys ih =>
    obtain ⟨hy, hys⟩ := List.isChain_cons_cons.1 h
    exact List.forall_mem_cons.2 ⟨hy, ih hys⟩

variable (choices : List Choice) (s : σ)

/-- Work that begins after the stop begins when the work before it ends. Before the first work
    there is none, so it is as if some had ended at time zero. -/
theorem Stops.chain (h : Stops time signals) :
    (⟨0, 0⟩ :: (repeatWork period work choices ⟨0, 0, signals⟩ s).1).IsChain
      fun a b => time < b.start → b.start = a.finish := by
  let P : Timer → Stint → Prop := fun t last =>
    Stops time t.signals ∧ (time < t.now → t.now = last.finish)
  have hfresh : P ⟨0, 0, signals⟩ ⟨0, 0⟩ := ⟨h, fun _ => rfl⟩
  refine chain_repeatWork (P := P) ?_ ?_ _ _ s hfresh
  · intro t last c _ start s ⟨hstops, hlast⟩ hturn new
    refine ⟨fun hlate => ?_, hstops, fun _ => rfl⟩
    obtain ⟨heq, -⟩ := (hstops.begins hturn).2 hlate
    exact heq.trans (hlast (heq ▸ hlate))
  · intro t t' last c now ⟨hstops, hlast⟩ hturn hgoes
    obtain ⟨hnow, -, hstops'⟩ := hstops.heeded hgoes
    refine ⟨hstops', fun hlate => ?_⟩
    have heq : now = t.now := (hstops.heeds hturn).2 (hnow ▸ hlate)
    rw [hnow, heq] at hlate ⊢
    exact hlast hlate

/-- Work that takes less than the period is done before the next tick. -/
theorem Stops.start_le_of_short (h : Stops time signals) (hshort : ∀ s, (work s).1 < period) :
    ∀ x ∈ (repeatWork period work choices ⟨0, 0, signals⟩ s).1, x.start ≤ time := by
  let P : Timer → Stint → Prop := fun t _ =>
    Stops time t.signals ∧ t.now ≤ t.due ∧ (time < t.now → t.now < t.due)
  have hfresh : P ⟨0, 0, signals⟩ ⟨0, 0⟩ := ⟨h, Nat.le_refl _, fun hlate => by cases hlate⟩
  refine forall_of_chain (chain_repeatWork (P := P) ?_ ?_ _ ⟨0, 0⟩ s hfresh)
  · intro t last c _ start s ⟨hstops, hle, hlate⟩ hturn new
    obtain ⟨hstart, hready⟩ := hstops.begins hturn
    have hdue : start = t.due := by omega
    have hnext : nextDue period t.due start = start + period := by
      rw [nextDue, if_neg (by omega), hdue]
    have hearly : start + (work s).1 < start + period := Nat.add_lt_add_left (hshort s) start
    refine ⟨?_, hstops, ?_, fun _ => ?_⟩
    · by_contra hafter
      obtain ⟨heq, -⟩ := hready (Nat.lt_of_not_le hafter)
      have hlt := hlate (heq ▸ Nat.lt_of_not_le hafter)
      omega
    · rw [Timer.worked, hnext]
      exact Nat.le_of_lt hearly
    · rw [Timer.worked, hnext]
      exact hearly
  · intro t t' last c now ⟨hstops, hle, hlate⟩ hturn hgoes
    obtain ⟨hnow, hdue, hstops'⟩ := hstops.heeded hgoes
    obtain ⟨htick, hready⟩ := hstops.heeds hturn
    refine ⟨hstops', by omega, fun hafter => ?_⟩
    have heq : now = t.now := hready (hnow ▸ hafter)
    rw [hnow, hdue, heq]
    exact hlate (by rwa [hnow, heq] at hafter)

/-- A loop that takes every signal as soon as it is ready begins nothing after the stop. -/
theorem Stops.start_le_of_heeding (h : Stops time signals) (hchoices : ∀ c ∈ choices, c = .signal) :
    ∀ x ∈ (repeatWork period work choices ⟨0, 0, signals⟩ s).1, x.start ≤ time := by
  refine forall_of_chain (chain_repeatWork (P := fun t _ => Stops time t.signals) ?_ ?_ _ ⟨0, 0⟩ s
    h)
  · intro t last c hc start s hstops hturn new
    refine ⟨?_, hstops⟩
    by_contra hafter
    obtain ⟨-, htick⟩ := (hstops.begins hturn).2 (Nat.lt_of_not_le hafter)
    rw [hchoices c hc] at htick
    cases htick
  · intro t t' last c now hstops _ hgoes
    exact (hstops.heeded hgoes).2.2

/-- From one stint to the next: each begins before the stop, and so is done by then. -/
theorem start_le_of_chain {last : Stint} {rest : List Stint} (hlast : last.finish ≤ time)
    (hrest : ∀ x ∈ rest, x.start ≤ time → x.finish ≤ time)
    (h : (last :: rest).IsChain fun a b => time < b.start → b.start = a.finish) :
    ∀ x ∈ rest, x.start ≤ time := by
  induction rest generalizing last with
  | nil => exact nofun
  | cons x rest ih =>
    obtain ⟨hx, hxs⟩ := List.isChain_cons_cons.1 h
    obtain ⟨hdone, hothers⟩ := List.forall_mem_cons.1 hrest
    have hstart : x.start ≤ time := by
      by_contra hafter
      have heq := hx (Nat.lt_of_not_le hafter)
      omega
    exact List.forall_mem_cons.2 ⟨hstart, ih (hdone hstart) hothers hxs⟩

end

end

/-! ## After the stop -/

/-- Whatever work is repeated, at whatever period, with whatever signals and choices. Nothing
    begins after the stop but straight after other work: the first stint begins before, and one
    that begins after it begins when the one before it ends. So nothing begins if no work is
    being done at the time of the stop, nor if work always takes less than the period, nor if
    signals are taken before ticks. -/
theorem begun_after_stop {σ : Type} (period : Nat) (work : σ → Nat × σ) (choices : List Choice)
    (signals : List (Nat × Signal)) (s : σ) (time : Nat) (hstop : Stops time signals) :
    let done := (repeatWork period work choices ⟨0, 0, signals⟩ s).1
    (∀ x ∈ done.head?, x.start ≤ time) ∧
    done.IsChain (fun a b => time < b.start → b.start = a.finish) ∧
    ((∀ x ∈ done, x.start ≤ time → x.finish ≤ time) → ∀ x ∈ done, x.start ≤ time) ∧
    ((∀ s, (work s).1 < period) → ∀ x ∈ done, x.start ≤ time) ∧
    ((∀ c ∈ choices, c = .signal) → ∀ x ∈ done, x.start ≤ time) := by
  intro done
  have hchain : (⟨0, 0⟩ :: done).IsChain fun a b => time < b.start → b.start = a.finish :=
    hstop.chain choices s
  obtain ⟨hfirst, hrest⟩ := List.isChain_cons.1 hchain
  refine ⟨fun x hx => ?_, hrest, fun hidle => start_le_of_chain (Nat.zero_le _) hidle hchain,
    hstop.start_le_of_short choices s, hstop.start_le_of_heeding choices s⟩
  by_contra hafter
  have hzero : x.start = 0 := hfirst x hx (Nat.lt_of_not_le hafter)
  omega

/-- A keep-alive whose rounds take longer than its period, and whose stop value is set to false
    in the first round before its sender goes away in the second. The tick is taken once more
    before that is noticed. -/
theorem begun_after_stop_dropped :
    let lengths : List Nat := [25, 12, 8, 8]
    let work : List Nat → Nat × List Nat := fun ns => (ns.headD 0, ns.tail)
    let signals : List (Nat × Signal) := [(7, .set false), (30, .dropped)]
    let done := (repeatWork 10 work [.signal, .tick, .signal, .tick, .signal] ⟨0, 0, signals⟩
      lengths).1
    Stops 30 signals ∧ done = [⟨0, 25⟩, ⟨25, 37⟩, ⟨37, 45⟩] ∧
    done.IsChain (fun a b => 30 < b.start → b.start = a.finish) := by
  intro lengths work signals done
  have hstop : Stops 30 signals := ⟨[(7, .set false)], .dropped, [], rfl, by decide, .inl rfl⟩
  obtain ⟨-, hchain, -⟩ := begun_after_stop 10 work [.signal, .tick, .signal, .tick, .signal]
    signals lengths 30 hstop
  exact ⟨hstop, by decide +kernel, hchain⟩

/-- A supervisor that is told to stop during a pass makes another one, if the pass has waited
    for a probe beyond the next tick and this tick is taken before the signal. -/
theorem pass_begins_after_stop :
    let i : Instance := .enrolled 1 ⟨"10.0.0.5", 9000⟩ [.status] 0
    let w : World := { clock := 0, unixTime := 0, inventory := ⟨[⟨.named "kv", [i]⟩], 1⟩,
                       fleet := { onProbe := fun _ => .hangs } }
    let signals : List (Nat × Signal) := [(25, .set true)]
    let done := (repeatWork 10 (passWork {} ⟨10, 50⟩) [.signal, .tick, .signal] ⟨0, 0, signals⟩ w).1
    Stops 25 signals ∧ done = [⟨0, 50⟩, ⟨50, 100⟩] ∧ ∃ x ∈ done, 25 < x.start := by
  intro i w signals done
  have hdone : done = [⟨0, 50⟩, ⟨50, 100⟩] := by decide +kernel
  refine ⟨⟨[], .set true, [], rfl, by decide, .inr ⟨rfl, by decide⟩⟩, hdone, ⟨50, 100⟩, ?_⟩
  rw [hdone]
  decide

end ServiceRegistry.Supervision
