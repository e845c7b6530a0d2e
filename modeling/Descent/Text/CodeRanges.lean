/-
Classes of characters as ranges of code points.

A class of a few hundred ranges is a sorted list of first and last code points.
Looking a code point up stops at the first range that ends at it or beyond.
-/

set_option autoImplicit false

namespace Descent.Text

/-- The code point lies in one of the ranges, which are sorted and apart. -/
def inRanges (n : Nat) : List (Nat × Nat) → Bool
  | [] => false
  | (lo, hi) :: rs => if n ≤ hi then lo ≤ n else inRanges n rs

/-- The code points at which the ranges begin, and those behind their ends. -/
def rangeEdges (rs : List (Nat × Nat)) : List Nat :=
  rs.flatMap fun (lo, hi) => [lo, hi + 1]

end Descent.Text
