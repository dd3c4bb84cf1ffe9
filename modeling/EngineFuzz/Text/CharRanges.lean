/-!
# Sets of characters, as ranges of code points

A property of characters that a standard lists as a table is kept as that table: ranges of code
points, both ends included, in ascending order and apart from each other.
-/

namespace EngineFuzz.Text

/-- Ranges of code points, in ascending order. -/
abbrev CharRanges := List (Nat × Nat)

/-- Whether a code point lies in one of the ranges.  The search stops at the first range above
it. -/
def CharRanges.contains : CharRanges → Nat → Bool
  | [], _ => false
  | (low, high) :: rest, n => if n < low then false else n ≤ high || contains rest n

end EngineFuzz.Text
