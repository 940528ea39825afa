/-
  ServiceRegistry.Capability

  What a registered port serves.
-/
import ServiceRegistry.Text.Ascii

namespace ServiceRegistry

/-- The role that a registered port plays. -/
inductive Capability
  /-- Answers probes, and is watched by them. -/
  | status
  | grpc
  | tcp
  | html
  deriving DecidableEq, Repr

namespace Capability

/-- The capabilities in their usual order. -/
def all : List Capability := [status, grpc, tcp, html]

/-- The name that messages use. -/
def name : Capability → String
  | status => "status"
  | grpc => "grpc"
  | tcp => "tcp"
  | html => "html"

theorem mem_all (c : Capability) : c ∈ all := by cases c <;> decide

theorem name_injective : ∀ {a b : Capability}, a.name = b.name → a = b := by
  intro a b; cases a <;> cases b <;> decide

/-- The capability with exactly this name. -/
def ofName? (text : String) : Option Capability := all.find? (·.name == text)

/-- The capability with this name in letters of either case. -/
def read? (text : String) : Option Capability := all.find? (Text.sameIgnoringCase text ·.name)

/-- The text that refuses any other name. -/
def unknownText (text : String) : String := "unknown api type \"" ++ text ++ "\""

end Capability

end ServiceRegistry
