/-
  ServiceRegistry.Text.CodePoints

  Sets of code points, given by their ranges. The tables of character properties are such
  lists, in ascending order.
-/

namespace ServiceRegistry.Text

/-- Ranges of code points, each by its first and its last one. -/
abbrev Ranges : Type := List (Nat × Nat)

/-- The code point lies in one of the ranges. -/
def Ranges.contains (ranges : Ranges) (n : Nat) : Bool :=
  ranges.any fun r => decide (r.1 ≤ n) && decide (n ≤ r.2)

end ServiceRegistry.Text
