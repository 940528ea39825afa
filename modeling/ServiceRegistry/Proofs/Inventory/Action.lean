/-
  ServiceRegistry.Proofs.Inventory.Action

  Everything that can be done to an inventory, as data, and the runs made of it. An event
  carries the clock reading it is made at. Nothing relates the readings of successive
  events, so a run also covers every way in which the clock may be changed in between.

  A run is seen in three ways: the inventory it leads to (`after`), each of its events with
  the inventory it met (`history`), and the number of instances it creates (`creations`).
-/
import ServiceRegistry.Inventory.Sweep

namespace ServiceRegistry.Inventory

/-! ## Actions and answers -/

/-- A change asked of an inventory. -/
inductive Action
  | enrol (service : Service) (endpoint : Endpoint) (capabilities : List Capability)
  | retire (id : InstanceId)
  | withdraw (id : InstanceId)
  | withdrawPorts (host : String) (ports : List UInt16)
  | sweep
  | noteProbe (id : InstanceId) (success : Bool)
  deriving DecidableEq, Repr

/-- What an action answers. -/
inductive Answer
  | enrolled (result : Except RegistryError Enrolment)
  | retired (result : Except RegistryError Instance)
  | withdrawn (result : Except RegistryError (List Eviction))
  | swept (evictions : List Eviction)
  | noted (failures : Option UInt32)

namespace Answer

/-- The registration that an answer reports. -/
def enrolment? : Answer → Option Enrolment
  | enrolled (.ok r) => some r
  | _ => none

/-- The numbers of all instances that an answer shows. -/
def ids : Answer → List InstanceId
  | enrolled (.ok r) => [r.current.id]
  | retired (.ok i) => [i.id]
  | withdrawn (.ok evictions) => evictions.map (·.removed.id)
  | swept evictions => evictions.map (·.removed.id)
  | _ => []

end Answer

/-! ## Events -/

/-- An action at a clock reading. -/
structure Event where
  now : UInt64
  action : Action
  deriving DecidableEq, Repr

/-- The answer to a change that may be refused, and the inventory after it. -/
def attempt {α : Type} (inv : Inventory) (answer : Except RegistryError α → Answer) :
    Except RegistryError (α × Inventory) → Answer × Inventory
  | .ok (a, inv) => (answer (.ok a), inv)
  | .error e => (answer (.error e), inv)

/-- What an event answers, and the inventory after it. What is refused changes nothing. -/
def Event.perform (policy : Policy) (e : Event) (inv : Inventory) : Answer × Inventory :=
  match e.action with
  | .enrol service endpoint capabilities =>
    attempt inv .enrolled (inv.enrol service endpoint capabilities e.now)
  | .retire id => attempt inv .retired (inv.retire id)
  | .withdraw id => attempt inv .withdrawn (inv.withdraw policy id e.now)
  | .withdrawPorts host ports =>
    let (evictions, inv) := inv.withdrawPorts policy host ports e.now
    (.swept evictions, inv)
  | .sweep =>
    let (evictions, inv) := inv.sweep policy e.now
    (.swept evictions, inv)
  | .noteProbe id success =>
    let (failures, inv) := inv.noteProbe id success e.now
    (.noted failures, inv)

/-- An event as it happens: with the inventory it meets. -/
structure Moment extends Event where
  met : Inventory

namespace Moment

variable (policy : Policy) (m : Moment)

/-- What the event answers. -/
def answer : Answer := (m.perform policy m.met).1

/-- The inventory after the event. -/
def after : Inventory := (m.perform policy m.met).2

/-- The event registers an instance that was not there. -/
def creates : Bool := (m.answer policy).enrolment?.any (·.created)

/-- The event registers the instance with a number, anew or again. -/
def returns (id : InstanceId) : Bool := (m.answer policy).enrolment?.any (·.current.id == id)

end Moment

/-! ## Runs -/

/-- The inventory after a run. -/
def after (policy : Policy) (inv : Inventory) : List Event → Inventory
  | [] => inv
  | e :: es => after policy ((Moment.mk e inv).after policy) es

/-- The events of a run as they happen. -/
def history (policy : Policy) (inv : Inventory) : List Event → List Moment
  | [] => []
  | e :: es => ⟨e, inv⟩ :: history policy ((Moment.mk e inv).after policy) es

/-- The number of instances that a run creates. -/
def creations (policy : Policy) (inv : Inventory) (es : List Event) : Nat :=
  (history policy inv es).countP (·.creates policy)

theorem after_append (policy : Policy) (inv : Inventory) (es fs : List Event) :
    after policy inv (es ++ fs) = after policy (after policy inv es) fs := by
  induction es generalizing inv with
  | nil => rfl
  | cons e es ih => exact ih ((Moment.mk e inv).after policy)

theorem history_append (policy : Policy) (inv : Inventory) (es fs : List Event) :
    history policy inv (es ++ fs) =
      history policy inv es ++ history policy (after policy inv es) fs := by
  induction es generalizing inv with
  | nil => rfl
  | cons e es ih =>
    simp only [List.cons_append, history, after]
    rw [ih]

theorem creations_append (policy : Policy) (inv : Inventory) (es fs : List Event) :
    creations policy inv (es ++ fs) =
      creations policy inv es + creations policy (after policy inv es) fs := by
  simp only [creations, history_append, List.countP_append]

theorem creations_cons (policy : Policy) (inv : Inventory) (e : Event) (es : List Event) :
    creations policy inv (e :: es) =
      (if (Moment.mk e inv).creates policy then 1 else 0)
        + creations policy ((Moment.mk e inv).after policy) es := by
  simp only [creations, history, List.countP_cons]
  omega

end ServiceRegistry.Inventory
