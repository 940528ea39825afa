/-
  ServiceRegistry.Json.Record

  Records with named fields, from objects or from arrays. In an object the members may come
  in any order, each field at most once, and members of other names are only checked for
  their shape. In an array the fields come in their order. A field with a default may be
  left out.
-/
import ServiceRegistry.Json.Decode

namespace ServiceRegistry.Json

/-! ## Fields -/

/-- What the reading of a record needs to know about a field. -/
structure Rule where
  name : String
  check : Decoder Unit
  hasDefault : Bool

/-- The values of the fields found in a text. -/
abbrev Table : Type := List (String × Raw)

/-- A field with values of some type. -/
structure RecordField (α : Type) where
  name : String
  decode : Decoder α
  default? : Option α := none

namespace RecordField

/-- The rule of a field. -/
def rule {α : Type} (f : RecordField α) : Rule :=
  ⟨f.name, fun raw => (f.decode raw).map fun _ => (), f.default?.isSome⟩

/-- The value of a field. -/
def get {α : Type} (f : RecordField α) (t : Table) : Except Fault α :=
  match t.lookup f.name, f.default? with
  | some raw, _ => f.decode raw
  | none, some a => .ok a
  | none, none => .error (.here (.missingField f.name))

end RecordField

/-! ## Reading -/

/-- Collects the fields of an object. -/
def scanMembers (rules : List Rule) (ending : Ending) :
    Table → List (RawString × Raw) → Except Fault Table
  | seen, [] => ending.check.map fun _ => seen
  | seen, (key, value) :: ms => do
    let name ← key.text.mapError Fault.broken
    match rules.find? (·.name == name) with
    | none =>
      Decoder.anything value
      scanMembers rules ending seen ms
    | some r =>
      if (seen.lookup name).isSome then .error (.here (.duplicateField name))
      else
        r.check.at (.member name) value
        scanMembers rules ending ((name, value) :: seen) ms

/-- Collects the fields of an array from the one with the given index on. -/
def scanItems (expected : String) (ending : Ending) :
    Nat → List Rule → List Raw → Except Fault Table
  | _, [], [] => ending.check.map fun _ => []
  | _, [], _ :: _ => .error .malformed
  | i, r :: rs, [] =>
    match ending with
    | .closed =>
      if r.hasDefault then scanItems expected ending (i + 1) rs []
      else .error (.here (.wrongLength i expected))
    | .broken how | .dangling how => .error (.broken how)
  | i, r :: rs, x :: xs => do
    r.check.at (.item i) x
    let t ← scanItems expected ending (i + 1) rs xs
    pure ((r.name, x) :: t)

/-- How a record with some number of fields is called in messages. -/
def recordWithLength (title : String) (n : Nat) : String :=
  "struct " ++ title ++ " with " ++ toString n ++ (if n = 1 then " element" else " elements")

/-- Reads a record; `build` puts it together from its fields. -/
def Decoder.record {α : Type} (title : String) (rules : List Rule)
    (build : Table → Except Fault α) : Decoder α
  | .object ms ending => do build (← scanMembers rules ending [] ms)
  | .array xs ending => do
    build (← scanItems (recordWithLength title rules.length) ending 0 rules xs)
  | .keyless => .error .malformed
  | raw => .error (raw.unexpected ("struct " ++ title))

/-! ## Whole texts -/

/-- Reads the value at the beginning of a text. -/
def Decoder.readFirst {α : Type} (d : Decoder α) (text : List UInt8) : Except Fault α :=
  d (Raw.read text).1

/-- Reads the only value of a text. -/
def Decoder.readWhole {α : Type} (d : Decoder α) (text : List UInt8) : Except Fault α := do
  let (raw, rest) := Raw.read text
  let a ← d raw
  if skipBlanks rest = [] then pure a else .error .malformed

end ServiceRegistry.Json
