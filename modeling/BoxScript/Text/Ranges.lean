/-!
# Sets of characters as ranges

A property of characters that a standard tabulates is kept as a list of ranges
of code points, in ascending order and apart from each other.
-/

set_option autoImplicit false

namespace BoxScript

/-- Inclusive ranges of code points. -/
abbrev Ranges := List (Nat × Nat)

namespace Ranges

/-- Whether a character lies in one of the ranges. -/
def has (ranges : Ranges) (c : Char) : Bool :=
  ranges.any fun (low, high) => low ≤ c.toNat && c.toNat ≤ high

end Ranges

end BoxScript
