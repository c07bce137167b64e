/-
Powers of natural and whole numbers.

Where an algebra library is at hand, `2 ^ n` means the power that every
monoid has. A module that opens `Power` means the power of numbers.
-/

namespace LispShell.Power

scoped instance (priority := high) natural : Pow Nat Nat := instPowNat

scoped instance (priority := high) whole : Pow Int Nat := instPowNat

end LispShell.Power
