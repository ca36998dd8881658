/-!
# Sets of code points

A set is written as its ranges, in increasing order and with both ends included.
-/

set_option autoImplicit false

namespace Conform.Unicode

/-- Membership; the search ends at the first range that is not below the number. -/
def inRanges (n : Nat) : List (Nat × Nat) → Bool
  | [] => false
  | (low, high) :: rest => if n < low then false else if n ≤ high then true else inRanges n rest

end Conform.Unicode
