/-
  ServiceRegistry.Service

  Services and the places that run them. A service has a name and perhaps a deploy path;
  an empty deploy path says no more than an absent one, though the two are kept apart.
-/

namespace ServiceRegistry

/-! ## Services -/

/-- A service as it is announced and asked for. -/
structure Service where
  name : String
  deployPath : Option String
  deriving DecidableEq, Repr

namespace Service

/-- The service without a deploy path. -/
def named (name : String) : Service := ⟨name, none⟩

/-- The deploy path, unless it is absent or empty. -/
def path? (s : Service) : Option String := s.deployPath.filter (· ≠ "")

/-- Sets the deploy path; an empty one removes it. -/
def withPath (s : Service) (path : String) : Service :=
  { s with deployPath := if path = "" then none else some path }

/-- The names agree, and the deploy paths do unless one of them is absent. -/
def accepts (a b : Service) : Bool :=
  a.name == b.name &&
    match a.path?, b.path? with
    | some p, some q => p == q
    | _, _ => true

theorem accepts_self (s : Service) : s.accepts s = true := by
  simp only [accepts, BEq.rfl, Bool.true_and]; cases s.path? <;> simp

theorem accepts_comm (a b : Service) : a.accepts b = b.accepts a := by
  simp only [accepts, Bool.beq_comm (a := a.name)]
  cases a.path? <;> cases b.path? <;> simp [Bool.beq_comm]

/-- The name, a colon, and the deploy path if there is one. -/
def label (s : Service) : String := s.name ++ ":" ++ s.path?.getD ""

end Service

/-! ## Endpoints -/

/-- Where an instance listens. -/
structure Endpoint where
  host : String
  port : UInt16
  deriving DecidableEq, Repr

/-- The host, a colon, and the port. -/
def Endpoint.text (e : Endpoint) : String := e.host ++ ":" ++ toString e.port.toNat

end ServiceRegistry
