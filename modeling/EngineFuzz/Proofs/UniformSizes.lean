import EngineFuzz.Proofs.SynthesisLimits
import Mathlib.Data.Set.Card
import Mathlib.Order.Interval.Finset.Nat
/-!
# Sizes are drawn exactly

However a range is made, its ends are in order, so there always is a size to draw.  A size is
drawn by reckoning with 64-bit words: the number of sizes may wrap to zero, it is pushed to the
left until its highest bit is at the head, and a word is accepted if the low half of its product
stays below that.  The words that are accepted for a size then are as many as the push is worth,
whatever the size: they stand in a row.  All others are drawn again.

The loop that draws again has no bound of its own, so it is a relation: so many words lead from
one state of a generator to a size and another state.  On listed words it ends at the latest
with the zero behind them, and there, as wherever its length is within the patience of the
source, it is what a draw does.

* `SizeRange.Made`, `SizeRange.made_bounds` — the ways to make a range;
* `SizeRange.trial`, `SizeRange.trial_eq` — what a word comes to;
* `SizeRange.ncard_trial` — how many words come to a size;
* `SizeRange.Drawn`, `SizeRange.Drawn.sample_eq` — the loop, and that a draw follows it;
* `SizeRange.exists_drawn_listed` — the loop on listed words;
* `SizeRange.sizes_are_exact` — ranges and their draws.
-/

namespace EngineFuzz

open Randomness

namespace SizeRange

section Making

/-- The ways to make a range from two ends: the constructors, the conversion from a pair, and
what is read from a document. -/
inductive Made : UInt64 → UInt64 → SizeRange → Prop where
  | named {what : String} {min max : UInt64} {r : SizeRange} (h : named what min max = .ok r) :
      Made min max r
  | new {min max : UInt64} {r : SizeRange} (h : new min max = .ok r) : Made min max r
  | pair {min max : UInt64} {r : SizeRange} (h : ofPair (min, max) = .ok r) : Made min max r
  | between {min max : UInt64} {r : SizeRange} (h : between min max = .ok r) : Made min max r
  | exactly (count : UInt64) : Made count count (exactly count)
  | empty : Made 0 0 empty
  | decoded {node : Toml.Node} {min max : UInt64} {r : SizeRange}
      (hpair : Toml.decodePair node = .ok (min, max)) (h : Toml.decodeRange node = .ok r) :
      Made min max r

/-- **A range that is made** has the ends that it is made from, and they are in order. -/
theorem made_bounds {min max : UInt64} {r : SizeRange} (h : Made min max r) :
    min ≤ max ∧ r.min = min ∧ r.max = max := by
  have hends : r.min = min ∧ r.max = max := by
    cases h with
    | named h => exact named_eq_ok_iff_ends.mp h
    | new h => exact named_eq_ok_iff_ends.mp h
    | pair h => exact named_eq_ok_iff_ends.mp h
    | between h =>
      unfold between at h
      split at h
      · obtain rfl := Except.ok.inj h
        exact ⟨rfl, rfl⟩
      · cases h
    | exactly count => exact ⟨rfl, rfl⟩
    | empty => exact ⟨rfl, rfl⟩
    | decoded hpair h =>
      rw [Toml.decodeRange_eq_ok_iff_pair, hpair] at h
      obtain ⟨hmin, hmax⟩ := Prod.ext_iff.mp (Except.ok.inj h)
      exact ⟨hmin.symm, hmax.symm⟩
  refine ⟨?_, hends⟩
  rw [← hends.1, ← hends.2]
  exact r.ordered

/-- The ranges of a configuration are made. -/
theorem made_of_mem_ranges {text : String} {config : Config} (h : Config.parse text = .ok config) :
    ∀ r ∈ config.shape.ranges, Made r.min r.max r := by
  refine Config.forall_ranges_shape (P := fun r => Made r.min r.max r) ?_ ?_ h
  · intro node r hread
    exact .decoded (Toml.decodeRange_eq_ok_iff_pair.mp hread) hread
  · intro r hr
    have hdefaults : Config.defaultShape.ranges =
        [⟨2, 4, by decide⟩, SizeRange.exactly 1, ⟨1, 2, by decide⟩, ⟨1, 2, by decide⟩] := rfl
    simp only [hdefaults, List.mem_cons, List.not_mem_nil, or_false] at hr
    rcases hr with rfl | rfl | rfl | rfl
    · exact .between rfl
    · exact .exactly 1
    · exact .between rfl
    · exact .between rfl

end Making

section Trials

variable {r : SizeRange} {word value : UInt64}

/-- The number of zero bits at the head of a 64-bit word. -/
def leadingZeros (n : Nat) : Nat := (BitVec.ofNat 64 n).clz.toNat

/-- What a word comes to when a size is drawn, in 64-bit words: a size, or nothing if it has to
be drawn again.  The number of sizes is zero if every word is a size. -/
def trial (r : SizeRange) (word : UInt64) : Option UInt64 :=
  let count := r.max - r.min + 1
  if count = 0 then some word
  else
    let zone := (count <<< UInt64.ofNat (leadingZeros count.toNat)) - 1
    let product := word.toNat * count.toNat
    if UInt64.ofNat product ≤ zone then some (r.min + UInt64.ofNat (product / 2 ^ 64)) else none

/-- The zero bits at the head, by the logarithm. -/
theorem leadingZeros_eq {n : Nat} (hn : n ≠ 0) (hfit : n < 2 ^ 64) :
    leadingZeros n = 63 - n.log2 := by
  let bits := BitVec.ofNat 64 n
  have htoNat : bits.toNat = n := by rw [BitVec.toNat_ofNat, Nat.mod_eq_of_lt hfit]
  have hbits : bits ≠ 0#64 := by
    intro hzero
    rw [hzero] at htoNat
    exact hn htoNat.symm
  have hclz : bits.clz.toNat < 64 := BitVec.clz_lt_iff_ne_zero.mpr hbits
  have hleast := BitVec.two_pow_sub_clz_le_toNat_of_ne_zero (by decide) hbits
  have hbelow := BitVec.toNat_lt_two_pow_sub_clz (x := bits)
  rw [htoNat] at hleast hbelow
  have hlog : n.log2 = 63 - bits.clz.toNat := by
    rw [Nat.log2_eq_iff hn]
    exact ⟨hleast, by rwa [show 63 - bits.clz.toNat + 1 = 64 - bits.clz.toNat by omega]⟩
  change bits.clz.toNat = 63 - n.log2
  omega

/-- The zone is the number of sizes, pushed to the left until its highest bit is at the head,
less one. -/
theorem toNat_zone_add_one {count : UInt64} (hcount : count ≠ 0) :
    (count <<< UInt64.ofNat (leadingZeros count.toNat) - 1).toNat + 1 =
      count.toNat * 2 ^ (63 - count.toNat.log2) := by
  have hpos : count.toNat ≠ 0 := fun hzero => hcount (UInt64.toNat_inj.mp hzero)
  have hpush := mul_two_pow_lt hpos count.toNat_lt
  have hpushed : 0 < count.toNat * 2 ^ (63 - count.toNat.log2) :=
    Nat.mul_pos (Nat.pos_of_ne_zero hpos) (Nat.two_pow_pos _)
  have hshifted : (count <<< UInt64.ofNat (leadingZeros count.toNat)).toNat =
      count.toNat * 2 ^ (63 - count.toNat.log2) := by
    rw [UInt64.toNat_shiftLeft, leadingZeros_eq hpos count.toNat_lt, UInt64.toNat_ofNat',
      Nat.mod_eq_of_lt (show 63 - count.toNat.log2 < 2 ^ 64 by omega),
      Nat.mod_eq_of_lt (show 63 - count.toNat.log2 < 64 by omega), Nat.shiftLeft_eq,
      Nat.mod_eq_of_lt hpush]
  rw [UInt64.toNat_sub_of_le _ _ (UInt64.le_iff_toNat_le.mpr (by rw [hshifted]; exact hpushed)),
    hshifted]
  exact Nat.sub_add_cancel hpushed

/-- The number of sizes, as it wraps. -/
theorem toNat_count (r : SizeRange) : (r.max - r.min + 1).toNat = r.width % 2 ^ 64 := by
  rw [UInt64.toNat_add, UInt64.toNat_sub_of_le _ _ r.ordered]
  rfl

/-- The numbers that a word stands for are the sizes, counted from the least. -/
theorem trial_eq (r : SizeRange) (word : UInt64) :
    (r.trial word).map UInt64.toNat = (attempt 64 r.width word.toNat).map (r.min.toNat + ·) := by
  have hcount := r.toNat_count
  have hordered : r.min.toNat ≤ r.max.toNat := UInt64.le_iff_toNat_le.mp r.ordered
  have hmax := r.max.toNat_lt
  have hwidth : r.width = r.max.toNat - r.min.toNat + 1 := rfl
  by_cases hfull : r.width = 2 ^ 64
  · have hzero : r.max - r.min + 1 = 0 := by
      rw [← UInt64.toNat_inj, hcount, hfull]
      rfl
    have hmin : r.min.toNat = 0 := by omega
    rw [trial, attempt, hzero, if_pos rfl, Nat.one_shiftLeft, if_pos hfull, Option.map_some,
      Option.map_some, hmin, Nat.zero_add]
  · have hpos : r.width ≠ 0 := by omega
    have hfit : r.width < 2 ^ 64 := by omega
    rw [Nat.mod_eq_of_lt hfit] at hcount
    have hne : r.max - r.min + 1 ≠ 0 := by
      rw [Ne, ← UInt64.toNat_inj, hcount]
      exact hpos
    have hzone := toNat_zone_add_one hne
    rw [hcount] at hzone
    have haccepted : UInt64.ofNat (word.toNat * r.width) ≤
          (r.max - r.min + 1) <<< UInt64.ofNat (leadingZeros r.width) - 1 ↔
        word.toNat * r.width % 2 ^ 64 < r.width * 2 ^ (63 - r.width.log2) := by
      rw [UInt64.le_iff_toNat_le, UInt64.toNat_ofNat', ← hzone, Nat.lt_succ_iff]
    rw [trial, attempt, if_neg hne, Nat.one_shiftLeft, if_neg hfull, Nat.shiftLeft_eq]
    simp only [hcount, haccepted]
    split
    · have hhigh : word.toNat * r.width / 2 ^ 64 < r.width := by
        rw [Nat.div_lt_iff_lt_mul (Nat.two_pow_pos _), Nat.mul_comm r.width]
        exact Nat.mul_lt_mul_of_pos_right word.toNat_lt (Nat.pos_of_ne_zero hpos)
      rw [Option.map_some, Option.map_some, UInt64.toNat_add, UInt64.toNat_ofNat',
        Nat.mod_eq_of_lt (by omega), Nat.mod_eq_of_lt (by omega)]
    · rfl

/-- A word that comes to a size stands for its distance from the least one. -/
theorem trial_eq_some_iff :
    r.trial word = some value ↔
      r.min ≤ value ∧ attempt 64 r.width word.toNat = some (value.toNat - r.min.toNat) := by
  have heq := r.trial_eq word
  constructor
  · intro h
    rw [h, Option.map_some] at heq
    obtain ⟨n, hn, hvalue⟩ := Option.map_eq_some_iff.mp heq.symm
    refine ⟨UInt64.le_iff_toNat_le.mpr (by omega), ?_⟩
    rw [hn, ← hvalue, Nat.add_sub_cancel_left]
  · rintro ⟨hmin, h⟩
    rw [h, Option.map_some, Nat.add_sub_cancel' (UInt64.le_iff_toNat_le.mp hmin)] at heq
    obtain ⟨found, hfound, hsame⟩ := Option.map_eq_some_iff.mp heq
    rw [hfound, UInt64.toNat_inj.mp hsame]

/-- A word is drawn again if it stands for nothing. -/
theorem trial_eq_none_iff : r.trial word = none ↔ attempt 64 r.width word.toNat = none := by
  rw [← Option.map_eq_none_iff (f := UInt64.toNat), trial_eq, Option.map_eq_none_iff]

/-- What a word comes to lies in the range. -/
theorem bounds_of_trial (h : r.trial word = some value) : r.min ≤ value ∧ value ≤ r.max := by
  obtain ⟨hmin, hattempt⟩ := trial_eq_some_iff.mp h
  have hlt := attempt_lt word.toNat_lt r.width_bounds.1 hattempt
  have hordered : r.min.toNat ≤ r.max.toNat := UInt64.le_iff_toNat_le.mp r.ordered
  have hwidth : r.width = r.max.toNat - r.min.toNat + 1 := rfl
  exact ⟨hmin, UInt64.le_iff_toNat_le.mpr (by omega)⟩

/-- **The words that come to a size** of a range are as many as the zero bits at the head of the
number of sizes are worth. -/
theorem ncard_trial (hfull : r.width ≠ 2 ^ 64) (hmin : r.min ≤ value) (hmax : value ≤ r.max) :
    {word | r.trial word = some value}.ncard = 2 ^ leadingZeros r.width := by
  have hbounds := r.width_bounds
  have hpos : r.width ≠ 0 := Nat.ne_of_gt hbounds.1
  have hfit : r.width < 2 ^ 64 := Nat.lt_of_le_of_ne hbounds.2 hfull
  rw [UInt64.le_iff_toNat_le] at hmin hmax
  have hwidth : r.width = r.max.toNat - r.min.toNat + 1 := rfl
  have hdistance : value.toNat - r.min.toNat < r.width := by omega
  let first := firstWord 64 r.width (value.toNat - r.min.toNat)
  have himage : UInt64.toNat '' {word | r.trial word = some value} =
      ↑(Finset.Ico first (first + 2 ^ leadingZeros r.width)) := by
    ext n
    rw [leadingZeros_eq hpos hfit, Finset.coe_Ico, Set.mem_Ico]
    constructor
    · rintro ⟨word, hword, rfl⟩
      exact (attempt_eq_some_iff hpos hfit).mp (trial_eq_some_iff.mp hword).2
    · intro hn
      have hsmall : n < 2 ^ 64 := lt_two_pow_of_lt_firstWord_add hfit hdistance hn.2
      have htoNat : (UInt64.ofNat n).toNat = n := UInt64.toNat_ofNat_of_lt' hsmall
      refine ⟨UInt64.ofNat n, trial_eq_some_iff.mpr ⟨UInt64.le_iff_toNat_le.mpr hmin, ?_⟩, htoNat⟩
      rw [htoNat]
      exact (attempt_eq_some_iff hpos hfit).mpr hn
  rw [← Set.ncard_image_of_injective _ fun _ _ => UInt64.toNat_inj.mp, himage, Set.ncard_coe_finset,
    Nat.card_Ico, Nat.add_sub_cancel_left]

/-- **Every word is a size**, and comes to itself, if there are as many sizes as words. -/
theorem trial_eq_self (hmin : r.min.toNat = 0) (hmax : r.max.toNat = 2 ^ 64 - 1) (word : UInt64) :
    r.trial word = some word := by
  have hfull : r.width = 1 <<< 64 := by
    have hwidth : r.width = r.max.toNat - r.min.toNat + 1 := rfl
    rw [Nat.one_shiftLeft]
    omega
  refine trial_eq_some_iff.mpr ⟨UInt64.le_iff_toNat_le.mpr (by omega), ?_⟩
  rw [attempt, if_pos hfull, hmin, Nat.sub_zero]

end Trials

section Drawing

variable {γ : Type} {next : γ → UInt64 × γ} {r : SizeRange} {draws : Nat} {state after : γ}
  {value : UInt64}

/-- So many words of a generator are drawn until one comes to a size. -/
inductive Drawn (next : γ → UInt64 × γ) (r : SizeRange) : Nat → γ → UInt64 → γ → Prop where
  /-- The word comes to a size. -/
  | accepted {state : γ} {value : UInt64} (h : r.trial (next state).1 = some value) :
      Drawn next r 1 state value (next state).2
  /-- The word has to be drawn again. -/
  | refused {state after : γ} {value : UInt64} {draws : Nat} (h : r.trial (next state).1 = none)
      (hrest : Drawn next r draws (next state).2 value after) :
      Drawn next r (draws + 1) state value after

/-- What the loop comes to lies in the range. -/
theorem Drawn.bounds (h : Drawn next r draws state value after) :
    r.min ≤ value ∧ value ≤ r.max := by
  induction h with
  | accepted h => exact bounds_of_trial h
  | refused _ _ ih => exact ih

/-- The loop comes to one end only. -/
theorem Drawn.unique {others : Nat} {otherValue : UInt64} {otherAfter : γ}
    (h : Drawn next r draws state value after)
    (hother : Drawn next r others state otherValue otherAfter) :
    draws = others ∧ value = otherValue ∧ after = otherAfter := by
  induction h generalizing others with
  | accepted h =>
    cases hother with
    | accepted hsame => exact ⟨rfl, Option.some.inj (h.symm.trans hsame), rfl⟩
    | refused hnone => exact nomatch h.symm.trans hnone
  | refused h _ ih =>
    cases hother with
    | accepted hsome => exact nomatch h.symm.trans hsome
    | refused _ hrest =>
      obtain ⟨hdraws, hsame⟩ := ih hrest
      exact ⟨congrArg (· + 1) hdraws, hsame⟩

variable {source rest : Source}

/-- A draw with a bound follows the loop, if the bound lets it. -/
theorem Drawn.firstAccepted_eq (h : Drawn Source.next64 r draws source value rest) {bound : Nat}
    (hbound : draws ≤ bound) :
    Draw.firstAccepted (UInt64.toNat <$> Draw.word64) (attempt 64 r.width) bound source =
      (value.toNat - r.min.toNat, rest) := by
  induction h generalizing bound with
  | accepted h =>
    obtain ⟨more, rfl⟩ : ∃ more, bound = more + 1 := ⟨bound - 1, by omega⟩
    exact Draw.firstAccepted_of_some (trial_eq_some_iff.mp h).2 more
  | refused h hrest ih =>
    obtain ⟨more, rfl⟩ : ∃ more, bound = more + 1 := ⟨bound - 1, by omega⟩
    exact (Draw.firstAccepted_of_none (trial_eq_none_iff.mp h) more).trans (ih (by omega))

/-- **A draw from a range** follows the loop, as long as the source has patience. -/
theorem Drawn.sample_eq (h : Drawn Source.next64 r draws source value rest)
    (hpatience : draws ≤ source.patience) : r.sample source = (value.toNat, rest) := by
  have hbelow : Draw.below64 r.width source = (value.toNat - r.min.toNat, rest) :=
    h.firstAccepted_eq hpatience
  have hsample : r.sample source =
      (r.min.toNat + (Draw.below64 r.width source).1, (Draw.below64 r.width source).2) := rfl
  have hmin : r.min.toNat ≤ value.toNat := UInt64.le_iff_toNat_le.mp h.bounds.1
  rw [hsample, hbelow, Nat.add_sub_cancel' hmin]

/-- **The loop on listed words** ends, at the latest with the zero that comes behind them. -/
theorem exists_drawn_listed (r : SizeRange) (words : List UInt64) :
    ∃ draws value, draws ≤ words.length + 1 ∧
      Drawn Source.next64 r draws (.listed words) value (.listed (words.drop draws)) := by
  induction words with
  | nil =>
    have hzero : r.trial (Source.next64 (.listed [])).1 = some r.min :=
      trial_eq_some_iff.mpr ⟨UInt64.le_refl _, by
        rw [Nat.sub_self]
        exact attempt_zero r.width_bounds.1⟩
    exact ⟨1, r.min, Nat.le_refl 1, .accepted hzero⟩
  | cons word words ih =>
    cases htrial : r.trial (Source.next64 (.listed (word :: words))).1 with
    | some value => exact ⟨1, value, by omega, .accepted htrial⟩
    | none =>
      obtain ⟨draws, value, hdraws, hdrawn⟩ := ih
      exact ⟨draws + 1, value, by simpa using hdraws, .refused htrial hdrawn⟩

end Drawing

/-- Sizes are drawn from a range without a failure, and exactly. -/
structure IsExact (r : SizeRange) : Prop where
  /-- There is a size to draw. -/
  ordered : r.min ≤ r.max
  /-- Whatever the generator, a loop that ends comes to a size of the range. -/
  drawn : ∀ {γ : Type} (next : γ → UInt64 × γ) (draws : Nat) (state : γ)
    (value : UInt64) (after : γ),
    Drawn next r draws state value after → r.min ≤ value ∧ value ≤ r.max
  /-- The loop comes to one end only. -/
  unique : ∀ {γ : Type} (next : γ → UInt64 × γ) (draws others : Nat) (state : γ)
    (value otherValue : UInt64) (after otherAfter : γ),
    Drawn next r draws state value after → Drawn next r others state otherValue otherAfter →
      draws = others ∧ value = otherValue ∧ after = otherAfter
  /-- Whatever the source, a draw comes to a size of the range. -/
  bounds : ∀ source, r.min.toNat ≤ (r.sample source).1 ∧ (r.sample source).1 ≤ r.max.toNat
  /-- A draw follows the loop as long as the source has patience. -/
  follows : ∀ (source rest : Source) (draws : Nat) (value : UInt64),
    Drawn Source.next64 r draws source value rest → draws ≤ source.patience →
      r.sample source = (value.toNat, rest)
  /-- On listed words the loop ends with one word more than there are, or before, and so does a
  draw. -/
  ends : ∀ words : List UInt64, ∃ draws value, draws ≤ words.length + 1 ∧
    Drawn Source.next64 r draws (.listed words) value (.listed (words.drop draws)) ∧
      r.sample (.listed words) = (value.toNat, .listed (words.drop draws))
  /-- Every size is what equally many words come to. -/
  uniform : r.width ≠ 2 ^ 64 → ∀ value, r.min ≤ value → value ≤ r.max →
    {word | r.trial word = some value}.ncard = 2 ^ leadingZeros r.width
  /-- From all sizes every word comes to itself. -/
  full : r.min.toNat = 0 → r.max.toNat = 2 ^ 64 - 1 → ∀ word, r.trial word = some word

/-- **Ranges are in order and sizes are drawn exactly.**  A range that is made has the two ends
it is made from, in order, and the ranges of a configuration are made.  From every range sizes
are drawn exactly. -/
theorem sizes_are_exact :
    (∀ min max r, Made min max r → min ≤ max ∧ r.min = min ∧ r.max = max) ∧
    (∀ text config, Config.parse text = .ok config →
      ∀ r ∈ config.shape.ranges, Made r.min r.max r) ∧
    ∀ r : SizeRange, r.IsExact := by
  refine ⟨fun _ _ _ => made_bounds, fun _ _ => made_of_mem_ranges, fun r => ?_⟩
  refine ⟨r.ordered, fun _ _ _ _ _ h => h.bounds, fun _ _ _ _ _ _ _ _ h => h.unique,
    r.sample_bounds, fun _ _ _ _ h => h.sample_eq, ?_, fun hfull _ => ncard_trial hfull,
    trial_eq_self⟩
  intro words
  obtain ⟨draws, value, hdraws, hdrawn⟩ := r.exists_drawn_listed words
  exact ⟨draws, value, hdraws, hdrawn, hdrawn.sample_eq hdraws⟩

/-- Two, three and four are drawn by `2 ^ 62` words each. -/
theorem sizes_are_exact_three :
    ∃ r, named "blocks" 2 4 = .ok r ∧ Made 2 4 r ∧
      {word | r.trial word = some 2}.ncard = 2 ^ 62 ∧
      {word | r.trial word = some 3}.ncard = 2 ^ 62 ∧
      {word | r.trial word = some 4}.ncard = 2 ^ 62 := by
  obtain ⟨-, -, hexact⟩ := sizes_are_exact
  let r : SizeRange := ⟨2, 4, by decide⟩
  have hnamed : named "blocks" 2 4 = .ok r := rfl
  have hfull : r.width ≠ 2 ^ 64 := by decide
  have hzeros : leadingZeros r.width = 62 := by decide
  have huniform := (hexact r).uniform hfull
  rw [hzeros] at huniform
  exact ⟨r, hnamed, .named hnamed, huniform 2 (by decide) (by decide),
    huniform 3 (by decide) (by decide), huniform 4 (by decide) (by decide)⟩

end SizeRange

end EngineFuzz
