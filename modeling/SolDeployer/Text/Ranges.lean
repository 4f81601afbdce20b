/-!
# Sets of code points

A character class of the Unicode standard is a list of ranges of code
points, in increasing order. Membership walks the list and stops at the
first range that begins after the code point.
-/

namespace SolDeployer.Text

/-- Ranges of code points in increasing order, both ends included. -/
abbrev Ranges := List (Nat × Nat)

namespace Ranges

/-- Is the code point in one of the ranges? -/
def contains : Ranges → Nat → Bool
  | [], _ => false
  | (low, high) :: rest, n =>
    if n < low then false else if n ≤ high then true else contains rest n

end Ranges

end SolDeployer.Text
