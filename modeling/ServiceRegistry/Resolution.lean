/-
  ServiceRegistry.Resolution

  Finding instances by capability, name and deploy path. A deploy path has four segments;
  a query gives three of them, or four with the last exact or `latest`, which stands for
  any.
-/
import ServiceRegistry.Inventory.Basic
import ServiceRegistry.Text.Segments

namespace ServiceRegistry

/-! ## Deploy paths -/

/-- The last segment of a query that stands for any. -/
def latest : String := "latest"

/-- A deploy path is meant by a queried one. -/
def pathAnswers (actual requested : String) : Bool :=
  match Text.segments '/' actual, Text.segments '/' requested with
  | [a, b, c, _], [p, q, r] => p == a && q == b && r == c
  | [a, b, c, d], [p, q, r, s] => p == a && q == b && r == c && (s == latest || s == d)
  | _, _ => false

/-! ## Queries -/

/-- What a target must be. -/
structure Query where
  capability : Capability
  path : Option String
  name : Option String
  deriving DecidableEq, Repr

/-- A query in which an empty path or name asks for nothing. -/
def Query.ofTexts (capability : Capability) (path name : String) : Query :=
  ⟨capability, if path = "" then none else some path, if name = "" then none else some name⟩

/-- A service is asked for. -/
def Query.admits (q : Query) (s : Service) : Bool :=
  q.path.all (fun p => pathAnswers (s.path?.getD "") p) && q.name.all (s.name == ·)

/-- The instances asked for, with their services. -/
def resolve (entries : List Entry) (q : Query) : List (Service × Instance) :=
  (entries.filter fun e => q.admits e.service).flatMap fun e =>
    (e.instances.filter fun i => i.isVisible && i.offers q.capability).map (e.service, ·)

/-- The targets of a query. -/
def Inventory.targets (inv : Inventory) (q : Query) : List (Service × Instance) :=
  resolve inv.entries q

end ServiceRegistry
