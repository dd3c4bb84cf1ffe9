import EngineFuzz.Randomness.Source
/-!
# Uniform choice

A uniform number below `count` is made from a word by a widening product: the high half of `word
* count` is the number, and the word is refused when the low half falls outside the largest
multiple of `count` of the form `count * 2 ^ k` that fits the width.  So each number is made by
the same number of words.

* `attempt` — what one word yields, or nothing when it is refused;
* `attempt_lt` — a number that is yielded is below the count;
* `Draw.below64`, `Draw.below32` — redraw until a word is accepted;
* `Draw.place` — a place in a list, from words that are no longer than its length needs;
* `Draw.pick` — one entry of a table, and no draw at all from an empty one;
* `Draw.shuffle` — the exchanges run from the last place down to the second.
-/

namespace EngineFuzz.Randomness

/-- The number below `count` that a word of the given width stands for, if the word is not refused.
The count is from 1 to `2 ^ width`; a full count takes every word as it is. -/
def attempt (width count word : Nat) : Option Nat :=
  if count = 1 <<< width then some word
  else if word * count % (1 <<< width) < count <<< (width - 1 - count.log2) then
    some (word * count / (1 <<< width))
  else none

/-- An accepted word yields a number below the count. -/
theorem attempt_lt {width count word n : Nat} (hword : word < 1 <<< width) (hcount : 0 < count)
    (h : attempt width count word = some n) : n < count := by
  unfold attempt at h
  split at h
  · next hfull =>
    cases h
    omega
  · split at h
    · cases h
      rw [Nat.div_lt_iff_lt_mul (by omega), Nat.mul_comm count]
      exact Nat.mul_lt_mul_of_pos_right hword hcount
    · cases h

/-- A zero is never refused. -/
theorem attempt_zero {width count : Nat} (hcount : 0 < count) : attempt width count 0 = some 0 := by
  unfold attempt
  split
  · rfl
  · simp [Nat.shiftLeft_eq, Nat.mul_pos hcount (Nat.two_pow_pos _)]

namespace Draw

/-- Draws words until one is accepted, at most `bound` of them; zero if all are refused. -/
def firstAccepted (draw : Draw Nat) (accept : Nat → Option Nat) : (bound : Nat) → Draw Nat
  | 0 => pure 0
  | bound + 1 => do
    match accept (← draw) with
    | some n => pure n
    | none => firstAccepted draw accept bound

/-- A uniform number below `count`, from 64-bit words; the count is from 1 to `2 ^ 64`. -/
def below64 (count : Nat) : Draw Nat := do
  let source ← get
  firstAccepted (UInt64.toNat <$> word64) (attempt 64 count) source.patience

/-- A uniform number below `count`, from 32-bit words; the count is from 1 to `2 ^ 32`. -/
def below32 (count : Nat) : Draw Nat := do
  let source ← get
  firstAccepted (UInt32.toNat <$> word32) (attempt 32 count) source.patience

/-- A place in a list of `count` entries: a number below `count`, from 32-bit words as long as
the count is a 32-bit number. -/
def place (count : Nat) : Draw Nat := if count < 1 <<< 32 then below32 count else below64 count

/-- One entry of a table.  An empty table has none, and then nothing is drawn. -/
def pick {α : Type} (table : List α) : Draw (Option α) :=
  match table with
  | [] => pure none
  | _ => do
    let n ← place table.length
    return table[n]?

/-- Exchanges each place from `last` down to 1 with a place chosen at or before it. -/
def shuffleFrom {α : Type} : (last : Nat) → Array α → Draw (Array α)
  | 0, xs => pure xs
  | last + 1, xs => do
    let n ← place (last + 2)
    shuffleFrom last (xs.swapIfInBounds (last + 1) n)

/-- The entries in a random order. -/
def shuffle {α : Type} (xs : List α) : Draw (List α) := do
  let ys ← shuffleFrom (xs.length - 1) xs.toArray
  return ys.toList

end Draw

end EngineFuzz.Randomness
