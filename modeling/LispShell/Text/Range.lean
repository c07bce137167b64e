/-
Ranges of code points, the rows of the character tables.
-/
namespace LispShell.Text

/-- The code points from `low` to `high`, both included. -/
structure Range where
  low : Nat
  high : Nat

/-- Whether the character lies in the range. -/
def Range.holds (r : Range) (c : Char) : Bool :=
  r.low ≤ c.toNat && c.toNat ≤ r.high

end LispShell.Text
