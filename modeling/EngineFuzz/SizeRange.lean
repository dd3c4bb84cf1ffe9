import EngineFuzz.Randomness.Uniform
/-!
# Size ranges

A size range says how many items a synthesizer may draw: any number from `min` to `max`, both
ends included.  The ends are 64-bit sizes and are in order in every range there is, so a draw
from a range always has a value to give.
-/

namespace EngineFuzz

open Randomness

/-- An inclusive, ordered pair of sizes. -/
structure SizeRange where
  min : UInt64
  max : UInt64
  ordered : min ≤ max
deriving DecidableEq, Repr

/-- A pair of sizes whose maximum lies below its minimum, and what it was meant for. -/
structure InvertedRange where
  what : String
  min : UInt64
  max : UInt64
deriving DecidableEq, Repr

namespace SizeRange

/-- The range from `min` to `max`; an inverted pair is reported under the name `what`. -/
def named (what : String) (min max : UInt64) : Except InvertedRange SizeRange :=
  if h : min ≤ max then .ok ⟨min, max, h⟩ else .error ⟨what, min, max⟩

/-- The range from `min` to `max`. -/
def new (min max : UInt64) : Except InvertedRange SizeRange := named "size" min max

/-- The range of a pair. -/
def ofPair (pair : UInt64 × UInt64) : Except InvertedRange SizeRange := new pair.1 pair.2

/-- The range between two constants of a program, which its author has put in order; the wording of
the refusal if that is not so. -/
def between (min max : UInt64) : Except String SizeRange :=
  if h : min ≤ max then .ok ⟨min, max, h⟩ else .error "inverted size range"

/-- The range of one size. -/
def exactly (count : UInt64) : SizeRange := ⟨count, count, UInt64.le_refl count⟩

/-- The range of the size zero. -/
def empty : SizeRange := exactly 0

/-- How many sizes the range holds. -/
def width (r : SizeRange) : Nat := r.max.toNat - r.min.toNat + 1

/-- A size of the range, each with the same chance. -/
def sample (r : SizeRange) : Draw Nat := do
  let n ← Draw.below64 r.width
  return r.min.toNat + n

/-- A range holds at least one size and at most `2 ^ 64`. -/
theorem width_bounds (r : SizeRange) : 0 < r.width ∧ r.width ≤ UInt64.size := by
  have := r.max.toNat_lt_size
  unfold width
  omega

/-- The range that a pair makes is the one with the same ends. -/
theorem named_eq_ok_iff_ends {what : String} {min max : UInt64} {r : SizeRange} :
    named what min max = .ok r ↔ r.min = min ∧ r.max = max := by
  obtain ⟨least, greatest, hordered⟩ := r
  unfold named
  constructor
  · intro hnamed
    split at hnamed
    · cases hnamed
      exact ⟨rfl, rfl⟩
    · cases hnamed
  · rintro ⟨rfl, rfl⟩
    exact dif_pos hordered

end SizeRange

end EngineFuzz
