/-
  ServiceRegistry.Supervision.Loop

  Work that is repeated at an interval until a signal stops it. The loop waits for the next
  tick or the next signal, whichever comes first; when both are ready it may take either.
  Times are milliseconds. Ticks missed during long work are skipped, and the following ones
  keep to the grid of the period.
-/

namespace ServiceRegistry.Supervision

/-! ## Ticks -/

/-- A tick this much late still counts as in time. -/
def tolerance : Nat := 5

/-- When the tick after one that was due and has come now is due. -/
def nextDue (period due now : Nat) : Nat :=
  if now > due + tolerance then now + period - (now - due) % period else due + period

/-! ## Signals -/

/-- What happens to the stop value. -/
inductive Signal
  | set (stop : Bool)
  /-- Nobody can set it any more. -/
  | dropped
  deriving DecidableEq, Repr

/-- Takes the values set up to a time; gives the last of them and what comes later. -/
def takeValues (now : Nat) : List (Nat × Signal) → Option Bool × List (Nat × Signal)
  | (t, .set stop) :: rest =>
    if t ≤ now then
      let (last, later) := takeValues now rest
      (some (last.getD stop), later)
    else (none, (t, .set stop) :: rest)
  | signals => (none, signals)

/-! ## The loop -/

/-- Where a loop stands: the time, when the next tick is due, and the signals to come. -/
structure Timer where
  now : Nat
  due : Nat
  signals : List (Nat × Signal)
  deriving DecidableEq, Repr

/-- What is taken when a tick and a signal are both ready. -/
inductive Choice
  | tick
  | signal
  deriving DecidableEq, Repr

/-- What the loop does next, and when. -/
inductive Turn
  | begin (time : Nat)
  | heed (time : Nat)
  deriving DecidableEq, Repr

/-- A piece of work, from when it began to when it was done. -/
structure Stint where
  start : Nat
  finish : Nat
  deriving DecidableEq, Repr

/-- What the loop does next. -/
def Timer.turn (t : Timer) (choice : Choice) : Turn :=
  let tick := max t.now t.due
  match t.signals with
  | [] => .begin tick
  | (s, _) :: _ =>
    let signal := max t.now s
    if tick < signal then .begin tick
    else if signal < tick then .heed signal
    else match choice with
      | .tick => .begin tick
      | .signal => .heed signal

/-- The loop after work that began at a time and took a while. -/
def Timer.worked (t : Timer) (period start duration : Nat) : Timer :=
  { t with now := start + duration, due := nextDue period t.due start }

/-- The loop after heeding the signals up to a time; `none` when they stop it. -/
def Timer.heeded? (t : Timer) (time : Nat) : Option Timer :=
  match takeValues time t.signals with
  | (some true, _) => none
  | (some false, later) => some { t with now := time, signals := later }
  | (none, _) => none

/-- Repeats work that changes a state and takes some time. The choices are used up one for
each turn. Gives the stints of work and the state at the end. -/
def repeatWork {σ : Type} (period : Nat) (work : σ → Nat × σ) :
    List Choice → Timer → σ → List Stint × σ
  | [], _, s => ([], s)
  | c :: cs, t, s =>
    match t.turn c with
    | .begin start =>
      let (duration, s) := work s
      let (stints, s) := repeatWork period work cs (t.worked period start duration) s
      (⟨start, start + duration⟩ :: stints, s)
    | .heed time =>
      match t.heeded? time with
      | none => ([], s)
      | some t => repeatWork period work cs t s

/-- Repeats work from time zero on. The tick that is due at once is taken before a signal that
is there already, later ticks after signals. At most one tick falls on each millisecond before
the last signal, so the choices suffice. -/
def repeatUntil {σ : Type} (period : Nat) (work : σ → Nat × σ) (signals : List (Nat × Signal))
    (s : σ) : List Stint × σ :=
  let turns := (signals.map (·.1)).foldl max 0 + signals.length + 2
  repeatWork period work (.tick :: List.replicate turns .signal) ⟨0, 0, signals⟩ s

end ServiceRegistry.Supervision
