/-
  ServiceRegistry.Json.Fault

  Why a text does not give a value of the expected form: it is no JSON, it ends too early,
  or some value in it is not what is expected there.
-/
import ServiceRegistry.Json.Raw
import ServiceRegistry.Text.Quoted

namespace ServiceRegistry.Json

/-! ## Mismatches -/

/-- What stands where something else is expected. -/
inductive Found
  | null
  | bool (value : Bool)
  | quantity (value : Quantity)
  | string (value : String)
  | sequence
  | map
  /-- The bare name of a variant. -/
  | bareVariant
  deriving DecidableEq, Repr

/-- The text of a binary number in messages. -/
def floatText (negative : Bool) (magnitude : Decimal.Binary64) : String :=
  (if negative then "-" else "") ++ String.ofList magnitude.shortest.text

/-- What stands there, in messages. -/
def Found.text : Found → String
  | null => "null"
  | bool value => "boolean `" ++ toString value ++ "`"
  | quantity (.integer n) => "integer `" ++ toString n ++ "`"
  | quantity (.float negative magnitude) =>
    "floating point `" ++ floatText negative magnitude ++ "`"
  | string value => "string " ++ Text.quoted value
  | sequence => "sequence"
  | map => "map"
  | bareVariant => "unit variant"

/-- How a value is not what is expected. -/
inductive Mismatch
  | wrongType (found : Found) (expected : String)
  | outOfRange (value : Int) (expected : String)
  | wrongLength (length : Nat) (expected : String)
  | unknownVariant (name : String) (names : List String)
  | missingField (name : String)
  | duplicateField (name : String)
  deriving DecidableEq, Repr

/-- The text of a mismatch. -/
def Mismatch.message : Mismatch → String
  | wrongType found expected => "invalid type: " ++ found.text ++ ", expected " ++ expected
  | outOfRange value expected =>
    "invalid value: " ++ (Found.quantity (.integer value)).text ++ ", expected " ++ expected
  | wrongLength length expected =>
    "invalid length " ++ toString length ++ ", expected " ++ expected
  | unknownVariant name names =>
    "unknown variant `" ++ name ++ "`, expected one of "
      ++ ", ".intercalate (names.map fun n => "`" ++ n ++ "`")
  | missingField name => "missing field `" ++ name ++ "`"
  | duplicateField name => "duplicate field `" ++ name ++ "`"

/-! ## Places -/

/-- One step into a value. -/
inductive Step
  | member (key : String)
  | item (index : Nat)
  deriving DecidableEq, Repr

/-- The text of the steps after the first. -/
def stepsText : List Step → String
  | [] => ""
  | .member key :: steps => "." ++ key ++ stepsText steps
  | .item index :: steps => "[" ++ toString index ++ "]" ++ stepsText steps

/-- The text of a place, empty for the whole value. -/
def placeText : List Step → String
  | .member key :: steps => key ++ stepsText steps
  | steps => stepsText steps

/-! ## Faults -/

/-- Why a text does not give a value. -/
inductive Fault
  | broken (how : Broken)
  | mismatch (place : List Step) (what : Mismatch)
  deriving DecidableEq, Repr

namespace Fault

/-- The text is no JSON. -/
def malformed : Fault := .broken .malformed

/-- The text ends too early. -/
def truncated : Fault := .broken .truncated

/-- A mismatch at the value itself. -/
def here (what : Mismatch) : Fault := .mismatch [] what

/-- The fault of a part as a fault of the whole. -/
def inside (step : Step) : Fault → Fault
  | broken how => broken how
  | mismatch place what => mismatch (step :: place) what

end Fault

/-- Reads a value of some form from a tree. -/
abbrev Decoder (α : Type) : Type := Raw → Except Fault α

/-- Reads a part of a value. -/
def Decoder.at {α : Type} (d : Decoder α) (step : Step) : Decoder α :=
  fun raw => (d raw).mapError (·.inside step)

end ServiceRegistry.Json
