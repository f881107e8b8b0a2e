/-
ViewContract.Text.Ranges — sets of code points as sorted ranges.

A character class is a list of inclusive ranges in ascending order. Looking
a code point up stops at the first range that begins above it, so a lookup of
an ASCII character reads only the head of a table.
-/

namespace ViewContract.Text

/-- Inclusive ranges of code points, ascending and disjoint. -/
abbrev Ranges := List (Nat × Nat)

namespace Ranges

/-- Whether a code point lies in one of the ranges. -/
def contains : Ranges → Nat → Bool
  | [], _ => false
  | (low, high) :: rest, n => if n < low then false else n ≤ high || contains rest n

/-- Whether the ranges ascend and do not touch from `bound` on. -/
def ascendFrom : Nat → Ranges → Bool
  | _, [] => true
  | bound, (low, high) :: rest => bound ≤ low && low ≤ high && ascendFrom (high + 2) rest

end Ranges

end ViewContract.Text
