/-!
# Sets of code points

A character class is given by the ranges of code points it holds.
-/

namespace JavaFront

/-- A set of code points as closed ranges in increasing order. -/
abbrev Ranges := List (Nat × Nat)

/-- Membership of a code point. -/
def Ranges.has (ranges : Ranges) (code : Nat) : Bool :=
  ranges.any fun range => range.1 ≤ code && code ≤ range.2

end JavaFront
