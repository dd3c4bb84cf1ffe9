import EngineFuzz.Randomness.KeyStream
/-!
# Sources of random words

A random source is either the key stream of a session seed or a list of words written down
beforehand, which ends in zeros.  All synthesis is a `Draw`: a computation that may take words
from a source and leaves the source where it stopped.  So the order and the number of draws are
part of what a `Draw` means, and two sessions from one seed make the same choices.

* `Source.next32`, `Source.next64` — one word; of a listed word a 32-bit draw keeps the low half;
* `Draw.bool`, `Draw.byte` — the top bit, and the low byte, of one 32-bit word;
* `Draw.many` — a fixed number of draws, in order.
-/

namespace EngineFuzz.Randomness

/-- Where random words come from. -/
inductive Source where
  /-- The key stream of a seed. -/
  | keyed (stream : KeyStream)
  /-- Words fixed in advance; after the last of them every word is zero. -/
  | listed (words : List UInt64)
deriving DecidableEq, Repr

namespace Source

/-- The source of a session seed. -/
def ofSeed (seed : UInt64) : Source := .keyed (.ofSeed seed)

/-- The next 32-bit word. -/
def next32 : Source → UInt32 × Source
  | .keyed stream =>
    let (w, stream) := stream.next
    (w, .keyed stream)
  | .listed [] => (0, .listed [])
  | .listed (w :: ws) => (w.toUInt32, .listed ws)

/-- The next 64-bit word: two words of a key stream, the low half first, or one listed word. -/
def next64 : Source → UInt64 × Source
  | .keyed stream =>
    let (low, stream) := stream.next
    let (high, stream) := stream.next
    ((high.toUInt64 <<< 32) ||| low.toUInt64, .keyed stream)
  | .listed [] => (0, .listed [])
  | .listed (w :: ws) => (w, .listed ws)

/-- How many words a draw that may refuse words looks at before it settles for the least value.  A
zero is never refused, so one word more than are listed is enough; of a key stream a word is refused
with a chance below one half, and the bound is never felt. -/
def patience : Source → Nat
  | .keyed _ => 4096
  | .listed words => words.length + 1

end Source

/-- A computation that draws from a random source. -/
abbrev Draw := StateM Source

namespace Draw

/-- One 32-bit word. -/
def word32 : Draw UInt32 := fun source => source.next32

/-- One 64-bit word. -/
def word64 : Draw UInt64 := fun source => source.next64

/-- A fair coin: the top bit of a 32-bit word. -/
def bool : Draw Bool := do
  let w ← word32
  return w >>> 31 == 1

/-- A byte: the low eight bits of a 32-bit word. -/
def byte : Draw UInt8 := do
  let w ← word32
  return w.toUInt8

/-- The results of `n` draws, in the order in which they were made. -/
def many {α : Type} (draw : Draw α) : (n : Nat) → Draw (Vector α n)
  | 0 => pure #v[]
  | n + 1 => do
    let xs ← many draw n
    let x ← draw
    return xs.push x

/-- The bytes that are listed are drawn, in order. -/
theorem many_byte_listed {n : Nat} (bytes : Vector UInt8 n) (rest : List UInt64) :
    many byte n (.listed (bytes.toList.map UInt8.toUInt64 ++ rest))
      = (bytes, .listed rest) := by
  induction n generalizing rest with
  | zero =>
    obtain rfl : bytes = #v[] := Vector.eq_empty
    rfl
  | succ n ih =>
    obtain ⟨front, final, rfl⟩ : ∃ front final, bytes = Vector.push front final :=
      Vector.exists_push
    have hbyte : byte (.listed (final.toUInt64 :: rest)) = (final, .listed rest) := by
      change (final.toUInt64.toUInt32.toUInt8, Source.listed rest) = _
      simp
    have hlist : (front.push final).toList.map UInt8.toUInt64 ++ rest
        = front.toList.map UInt8.toUInt64 ++ final.toUInt64 :: rest := by
      simp [Vector.toList_push]
    rw [hlist]
    change (let (xs, source) := many byte n _
      let (x, source) := byte source
      (xs.push x, source)) = _
    rw [ih]
    simp only [hbyte]

end Draw

end EngineFuzz.Randomness
