/-
  ServiceRegistry.Inventory.Basic

  The registry's memory: entries in the order of their first registration, each a service
  with its instances in the order of theirs, and the last number given to an instance.
  Entries are never removed, so an entry without instances is merely dormant.
-/
import ServiceRegistry.RegistryError
import ServiceRegistry.Health

namespace ServiceRegistry

/-! ## Changing one element -/

/-- Changes the first element with a property; `none` when there is none. -/
def modifyFirst? {α : Type} (p : α → Bool) (f : α → α) : List α → Option (List α)
  | [] => none
  | x :: xs => if p x then some (f x :: xs) else (modifyFirst? p f xs).map (x :: ·)

theorem modifyFirst?_eq_none {α : Type} {p : α → Bool} {f : α → α} {xs : List α} :
    modifyFirst? p f xs = none ↔ ∀ x ∈ xs, p x = false := by
  induction xs with
  | nil => simp [modifyFirst?]
  | cons x xs ih => by_cases h : p x <;> simp_all [modifyFirst?]

/-! ## Entries -/

/-- A service and its instances. -/
structure Entry where
  service : Service
  instances : List Instance
  deriving DecidableEq, Repr

/-- What a registration did: the instance afterwards, and whether it is new. -/
structure Enrolment where
  current : Instance
  created : Bool
  deriving DecidableEq, Repr

namespace Entry

/-- The entry as readers see it. -/
def visible (e : Entry) : Entry := { e with instances := e.instances.filter (·.isVisible) }

/-- Registers an endpoint: a known one is refreshed, a new one gets the number `id`. -/
def enrol (e : Entry) (id : InstanceId) (endpoint : Endpoint) (capabilities : List Capability)
    (now : UInt64) : Enrolment × Entry :=
  match e.instances.find? (·.endpoint == endpoint) with
  | some old =>
    (⟨old.refreshed now, false⟩,
      { e with
        instances :=
          (modifyFirst? (·.endpoint == endpoint) (·.refreshed now) e.instances).getD e.instances })
  | none =>
    let new := Instance.enrolled id endpoint capabilities now
    (⟨new, true⟩, { e with instances := e.instances ++ [new] })

/-- Changes the instance with a number. -/
def modify? (e : Entry) (id : InstanceId) (f : Instance → Instance) : Option Entry :=
  (modifyFirst? (·.id == id) f e.instances).map fun is => { e with instances := is }

end Entry

/-! ## The inventory -/

/-- All entries, and the last number given to an instance. -/
structure Inventory where
  entries : List Entry := []
  lastId : InstanceId := 0
  deriving DecidableEq, Repr

namespace Inventory

/-- The inventory before any registration. -/
def empty : Inventory := {}

/-- All instances with their services, hidden ones included. -/
def stored (inv : Inventory) : List (Service × Instance) :=
  inv.entries.flatMap fun e => e.instances.map fun i => (e.service, i)

/-- The number of instances, hidden ones included. -/
def size (inv : Inventory) : Nat := inv.stored.length

/-- The instance with a number. -/
def find? (inv : Inventory) (id : InstanceId) : Option Instance :=
  (inv.entries.flatMap (·.instances)).find? (·.id == id)

/-! ## Registration -/

/-- Registers an endpoint in the first entry that accepts the service, or in a new entry
at the end. -/
def enrolAmong (id : InstanceId) (service : Service) (endpoint : Endpoint)
    (capabilities : List Capability) (now : UInt64) : List Entry → Enrolment × List Entry
  | [] =>
    let (r, e) := (Entry.mk service []).enrol id endpoint capabilities now
    (r, [e])
  | e :: es =>
    if e.service.accepts service then
      let (r, e) := e.enrol id endpoint capabilities now
      (r, e :: es)
    else
      let (r, es) := enrolAmong id service endpoint capabilities now es
      (r, e :: es)

/-- Registers an endpoint of a service. A new instance gets the next number. -/
def enrol (inv : Inventory) (service : Service) (endpoint : Endpoint)
    (capabilities : List Capability) (now : UInt64) :
    Except RegistryError (Enrolment × Inventory) :=
  if service.name = "" then .error .missingName
  else
    let next := inv.lastId + 1
    let (r, es) := enrolAmong next service endpoint capabilities now inv.entries
    .ok (r, ⟨es, if r.created then next else inv.lastId⟩)

/-! ## Changing one instance -/

/-- Changes the instance with a number in the first entry that holds it. -/
def modifyAmong? (id : InstanceId) (f : Instance → Instance) : List Entry → Option (List Entry)
  | [] => none
  | e :: es =>
    match e.modify? id f with
    | some e => some (e :: es)
    | none => (modifyAmong? id f es).map (e :: ·)

/-- Changes the instance with a number; gives the instance afterwards. -/
def modify? (inv : Inventory) (id : InstanceId) (f : Instance → Instance) :
    Option (Instance × Inventory) :=
  match inv.find? id, modifyAmong? id f inv.entries with
  | some i, some es => some (f i, { inv with entries := es })
  | _, _ => none

/-- Hides an instance until the next sweep. -/
def retire (inv : Inventory) (id : InstanceId) : Except RegistryError (Instance × Inventory) :=
  match inv.modify? id (·.hidden) with
  | some r => .ok r
  | none => .error (.instanceNotFound id)

/-- Notes the outcome of a probe and gives the count of failures, or nothing when the
instance has gone in the meantime. -/
def noteProbe (inv : Inventory) (id : InstanceId) (success : Bool) (now : UInt64) :
    Option UInt32 × Inventory :=
  match inv.modify? id (·.probed success now) with
  | some (i, inv) => (some i.failures, inv)
  | none => (none, inv)

/-- How the instance with a number fares. -/
def conditionOf (inv : Inventory) (policy : Policy) (id : InstanceId) (now : UInt64) :
    Option Condition :=
  (inv.find? id).map (policy.assess · now)

end Inventory

end ServiceRegistry
