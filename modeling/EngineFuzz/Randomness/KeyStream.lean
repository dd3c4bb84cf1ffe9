/-!
# The key stream of a session

Every random choice of a session is read off one endless stream of 32-bit words, and the stream
is a function of the 64-bit session seed alone.  The seed is stretched to a 256-bit key, and the
key is run through the ChaCha permutation with twelve rounds, one block of sixteen words for
each value of a 64-bit block counter.

* `Row`, `Row.rotate` — the sixteen words stand in four rows of four; a round works on whole
  rows, and the diagonal round is the column round between two rotations of the rows;
* `keyOfSeed` — the eight key words, made by a permuted congruential generator;
* `block` — the sixteen words of one counter value;
* `KeyStream.next` — the next word of the stream.
-/

namespace EngineFuzz.Randomness

/-- Four words of the block, one in each column. -/
structure Row where
  first : UInt32
  second : UInt32
  third : UInt32
  fourth : UInt32
deriving DecidableEq, Repr

namespace Row

/-- Combines two rows column by column. -/
def zip (f : UInt32 → UInt32 → UInt32) (r s : Row) : Row :=
  ⟨f r.first s.first, f r.second s.second, f r.third s.third, f r.fourth s.fourth⟩

/-- Turns the bits of each word left by `n`, for `n` from 1 to 31. -/
def turn (n : UInt32) (r : Row) : Row :=
  let left (x : UInt32) : UInt32 := (x <<< n) ||| (x >>> (32 - n))
  ⟨left r.first, left r.second, left r.third, left r.fourth⟩

/-- Moves every word one column to the left; the first word goes to the last column. -/
def rotate (r : Row) : Row := ⟨r.second, r.third, r.fourth, r.first⟩

/-- The words from left to right. -/
def toList (r : Row) : List UInt32 := [r.first, r.second, r.third, r.fourth]

end Row

/-- The sixteen words of a block, row by row. -/
structure Block where
  top : Row
  upper : Row
  lower : Row
  bottom : Row
deriving DecidableEq, Repr

namespace Block

/-- Sixteen words, in reading order. -/
def toList (b : Block) : List UInt32 :=
  b.top.toList ++ b.upper.toList ++ b.lower.toList ++ b.bottom.toList

/-- Adds two blocks word by word. -/
def add (b c : Block) : Block :=
  ⟨b.top.zip (· + ·) c.top, b.upper.zip (· + ·) c.upper,
    b.lower.zip (· + ·) c.lower, b.bottom.zip (· + ·) c.bottom⟩

/-- One quarter round on each of the four columns at once. -/
def columnRound (b : Block) : Block :=
  let t := b.top.zip (· + ·) b.upper
  let d := (b.bottom.zip (· ^^^ ·) t).turn 16
  let l := b.lower.zip (· + ·) d
  let u := (b.upper.zip (· ^^^ ·) l).turn 12
  let t := t.zip (· + ·) u
  let d := (d.zip (· ^^^ ·) t).turn 8
  let l := l.zip (· + ·) d
  let u := (u.zip (· ^^^ ·) l).turn 7
  ⟨t, u, l, d⟩

/-- One quarter round on each of the four diagonals: the rows are rotated so that the diagonals
stand in columns, and rotated back. -/
def diagonalRound (b : Block) : Block :=
  let c := columnRound
    ⟨b.top, b.upper.rotate, b.lower.rotate.rotate, b.bottom.rotate.rotate.rotate⟩
  ⟨c.top, c.upper.rotate.rotate.rotate, c.lower.rotate.rotate, c.bottom.rotate⟩

/-- `n` double rounds. -/
def rounds : Nat → Block → Block
  | 0, b => b
  | n + 1, b => rounds n b.columnRound.diagonalRound

end Block

/-- The 256-bit key of a stream. -/
structure Key where
  upper : Row
  lower : Row
deriving DecidableEq, Repr

/-- The state of the generator that stretches a seed: one congruential step. -/
def stretch (state : UInt64) : UInt64 := state * 6364136223846793005 + 11634580027462260723

/-- The word shown by a state of the stretching generator: the high bits are folded onto the low
ones and turned right by the top five. -/
def shownWord (state : UInt64) : UInt32 :=
  let folded := (((state >>> 18) ^^^ state) >>> 27).toUInt32
  let turn := (state >>> 59).toUInt32
  (folded >>> turn) ||| (folded <<< ((32 - turn) % 32))

/-- Four words shown in a row, and the state after them. -/
def stretchRow (state : UInt64) : Row × UInt64 :=
  let a := stretch state
  let b := stretch a
  let c := stretch b
  let d := stretch c
  (⟨shownWord a, shownWord b, shownWord c, shownWord d⟩, d)

/-- The key that a 64-bit seed stands for. -/
def keyOfSeed (seed : UInt64) : Key :=
  let (upper, state) := stretchRow seed
  let (lower, _) := stretchRow state
  ⟨upper, lower⟩

/-- The first row of every block. -/
def constantRow : Row := ⟨0x61707865, 0x3320646e, 0x79622d32, 0x6b206574⟩

/-- The block of a counter value: six double rounds of the initial block, added to it.  The
counter is 64 bits wide and stands low word first; the nonce behind it is zero. -/
def block (key : Key) (counter : UInt64) : Block :=
  let start : Block :=
    ⟨constantRow, key.upper, key.lower, ⟨counter.toUInt32, (counter >>> 32).toUInt32, 0, 0⟩⟩
  (start.rounds 6).add start

/-- A stream of words: its key, the counter of the next block, and what is left of the current
one. -/
structure KeyStream where
  key : Key
  counter : UInt64
  pending : List UInt32
deriving DecidableEq, Repr

namespace KeyStream

/-- The stream of a seed, from its first word. -/
def ofSeed (seed : UInt64) : KeyStream := ⟨keyOfSeed seed, 0, []⟩

/-- The next word, and the stream after it. -/
def next (s : KeyStream) : UInt32 × KeyStream :=
  match s.pending with
  | w :: rest => (w, { s with pending := rest })
  | [] =>
    let b := block s.key s.counter
    (b.top.first, { s with counter := s.counter + 1, pending := b.toList.tail })

end KeyStream

end EngineFuzz.Randomness
