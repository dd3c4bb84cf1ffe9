import EngineFuzz.Proofs.ExpressionSymbols
import Mathlib.Algebra.Group.Nat.Defs
/-!
# The values that draws come to

A draw is bounded from two sides.  Whatever its source, it comes to a value of a certain kind;
and of that kind it misses none, since for each value there are words that lead to it.  The
second side is a statement about listed words: `Reaches draw x` says that some words make the
draw come to `x` and are all that it takes, so that draws which follow find the words behind
them.  Then what two draws reach one after the other is reached by the words of both.

* `attempt_eq_some_iff`, `exists_attempt_eq` — the words that stand for a number, and that there
  are some for each number below the count;
* `place_lt`, `reaches_place` — the places in a list;
* `exists_of_pick`, `reaches_pick` — the entries of a table;
* `shuffle_perm`, `reaches_shuffle` — the orders of a list;
* `SizeRange.sample_bounds`, `SizeRange.reaches_sample` — the sizes of a range.
-/

namespace EngineFuzz

open Randomness

namespace Randomness

section Words

variable {width count word n : Nat}

/-- A count that is pushed to the left as far as it goes stays within the width. -/
theorem mul_two_pow_lt (hcount : count ≠ 0) (hfit : count < 2 ^ width) :
    count * 2 ^ (width - 1 - count.log2) < 2 ^ width := by
  have hlog : count.log2 < width := (Nat.log2_lt hcount).mpr hfit
  calc count * 2 ^ (width - 1 - count.log2)
      < 2 ^ (count.log2 + 1) * 2 ^ (width - 1 - count.log2) :=
        Nat.mul_lt_mul_of_pos_right Nat.lt_log2_self (Nat.two_pow_pos _)
    _ = 2 ^ width := by rw [← Nat.pow_add]; congr 1; omega

/-- The least word that makes a number. -/
def firstWord (width count n : Nat) : Nat := (n * 2 ^ width + (count - 1)) / count

/-- A word is accepted for a number if its product with the count exceeds the multiple of `2 ^
width` that belongs to the number by less than the count, pushed to the left. -/
theorem attempt_eq_some_iff_mul (hcount : count ≠ 0) (hfit : count < 2 ^ width) :
    attempt width count word = some n ↔
      n * 2 ^ width ≤ word * count ∧
        word * count < n * 2 ^ width + count * 2 ^ (width - 1 - count.log2) := by
  have hzone := mul_two_pow_lt hcount hfit
  have hproduct := Nat.div_add_mod (word * count) (2 ^ width)
  have hlow := Nat.mod_lt (word * count) (Nat.two_pow_pos width)
  rw [attempt, Nat.one_shiftLeft, if_neg (Nat.ne_of_lt hfit), Nat.shiftLeft_eq]
  constructor
  · intro h
    split at h
    · next haccepted =>
      obtain rfl := Option.some.inj h
      rw [Nat.mul_comm (2 ^ width)] at hproduct
      omega
    · cases h
  · rintro ⟨hleast, hbelow⟩
    have hdiv : word * count / 2 ^ width = n := by
      refine Nat.div_eq_of_lt_le hleast ?_
      rw [Nat.succ_mul]
      omega
    rw [hdiv, Nat.mul_comm] at hproduct
    rw [if_pos (by omega), hdiv]

/-- The words from the first one on are those with a great enough product. -/
theorem firstWord_le_iff (hcount : count ≠ 0) :
    firstWord width count n ≤ word ↔ n * 2 ^ width ≤ word * count := by
  rw [firstWord, ← Nat.lt_succ_iff, Nat.div_lt_iff_lt_mul (Nat.pos_of_ne_zero hcount), Nat.succ_mul]
  omega

/-- So many words from the first one on have products that are small enough. -/
theorem lt_firstWord_add_iff (hcount : count ≠ 0) (more : Nat) :
    word < firstWord width count n + more ↔ word * count < n * 2 ^ width + count * more := by
  have hpos := Nat.pos_of_ne_zero hcount
  rw [firstWord, ← Nat.add_mul_div_left _ _ hpos, ← Nat.succ_le_iff, Nat.le_div_iff_mul_le hpos,
    Nat.succ_mul]
  omega

/-- **The words for a number** are `2 ^ k` words in a row, where `k` is how far the count is
pushed to the left. -/
theorem attempt_eq_some_iff (hcount : count ≠ 0) (hfit : count < 2 ^ width) :
    attempt width count word = some n ↔
      firstWord width count n ≤ word ∧
        word < firstWord width count n + 2 ^ (width - 1 - count.log2) := by
  rw [attempt_eq_some_iff_mul hcount hfit, firstWord_le_iff hcount, lt_firstWord_add_iff hcount]

/-- The words for a number below the count are words of the width. -/
theorem lt_two_pow_of_lt_firstWord_add (hfit : count < 2 ^ width) (hn : n < count)
    (hword : word < firstWord width count n + 2 ^ (width - 1 - count.log2)) : word < 2 ^ width := by
  have hcount : count ≠ 0 := Nat.ne_of_gt (Nat.zero_lt_of_lt hn)
  have hzone := mul_two_pow_lt hcount hfit
  have hproduct := (lt_firstWord_add_iff hcount _).mp hword
  have hbelow : word * count < 2 ^ width * count := by
    calc word * count
        < n * 2 ^ width + 2 ^ width := by omega
      _ = (n + 1) * 2 ^ width := by rw [Nat.succ_mul]
      _ ≤ count * 2 ^ width := Nat.mul_le_mul_right _ hn
      _ = 2 ^ width * count := Nat.mul_comm _ _
  exact Nat.lt_of_mul_lt_mul_right hbelow

/-- **Every number below the count is made by some word.** -/
theorem exists_attempt_eq (hn : n < count) (hcount : count ≤ 1 <<< width) :
    ∃ word, word < 1 <<< width ∧ attempt width count word = some n := by
  by_cases hfull : count = 1 <<< width
  · exact ⟨n, hfull ▸ hn, by rw [attempt, if_pos hfull]⟩
  · rw [Nat.one_shiftLeft] at hcount hfull ⊢
    have hpos : count ≠ 0 := Nat.ne_of_gt (Nat.zero_lt_of_lt hn)
    have hfit : count < 2 ^ width := Nat.lt_of_le_of_ne hcount hfull
    have hlast : firstWord width count n < firstWord width count n + 2 ^ (width - 1 - count.log2) :=
      Nat.lt_add_of_pos_right (Nat.two_pow_pos _)
    exact ⟨firstWord width count n, lt_two_pow_of_lt_firstWord_add hfit hn hlast,
      (attempt_eq_some_iff hpos hfit).mpr ⟨Nat.le_refl _, hlast⟩⟩

end Words

namespace Draw

variable {α β : Type}

/-- Some words make the draw come to this value, and it takes these words and no more. -/
def Reaches (draw : Draw α) (x : α) : Prop :=
  ∃ words : List UInt64, ∀ rest, draw (.listed (words ++ rest)) = (x, .listed rest)

/-- A value that is given is reached without a word. -/
theorem reaches_pure (x : α) : Reaches (pure x) x := ⟨[], fun _ => rfl⟩

/-- What a draw and a draw behind it reach is reached by the words of both. -/
theorem Reaches.bind {draw : Draw α} {next : α → Draw β} {x : α} {y : β} (hfirst : Reaches draw x)
    (hnext : Reaches (next x) y) : Reaches (draw >>= next) y := by
  obtain ⟨words, hwords⟩ := hfirst
  obtain ⟨more, hmore⟩ := hnext
  refine ⟨words ++ more, fun rest => ?_⟩
  have hrun : (draw >>= next) (.listed (words ++ more ++ rest)) =
      next (draw (.listed (words ++ more ++ rest))).1
        (draw (.listed (words ++ more ++ rest))).2 := rfl
  rw [hrun, List.append_assoc, hwords, hmore]

section Below

variable {width count n : Nat} {draw : Draw Nat}

/-- A word that is accepted ends the draws. -/
theorem firstAccepted_of_some {accept : Nat → Option Nat} {source : Source}
    (h : accept (draw source).1 = some n) (bound : Nat) :
    firstAccepted draw accept (bound + 1) source = (n, (draw source).2) := by
  rcases hdrawn : draw source with ⟨word, next⟩
  rw [hdrawn] at h
  simp only [firstAccepted, bind, StateT.bind, hdrawn, h]
  rfl

/-- Behind a word that is refused the draws go on. -/
theorem firstAccepted_of_none {accept : Nat → Option Nat} {source : Source}
    (h : accept (draw source).1 = none) (bound : Nat) :
    firstAccepted draw accept (bound + 1) source =
      firstAccepted draw accept bound (draw source).2 := by
  rcases hdrawn : draw source with ⟨word, next⟩
  rw [hdrawn] at h
  simp only [firstAccepted, bind, StateT.bind, hdrawn, h]

/-- A number that is drawn with refusals is below the count, also if all words are refused. -/
theorem firstAccepted_lt (hdraw : ∀ source, (draw source).1 < 1 <<< width) (hcount : 0 < count)
    (bound : Nat) (source : Source) :
    (firstAccepted draw (attempt width count) bound source).1 < count := by
  induction bound generalizing source with
  | zero => exact hcount
  | succ bound ih =>
    cases hattempt : attempt width count (draw source).1 with
    | some n =>
      rw [firstAccepted_of_some hattempt]
      exact attempt_lt (hdraw source) hcount hattempt
    | none =>
      rw [firstAccepted_of_none hattempt]
      exact ih _

/-- A number from 64-bit words is below the count. -/
theorem below64_lt (hcount : 0 < count) (source : Source) : (below64 count source).1 < count :=
  firstAccepted_lt (fun source => source.next64.1.toNat_lt) hcount _ _

/-- A number from 32-bit words is below the count. -/
theorem below32_lt (hcount : 0 < count) (source : Source) : (below32 count source).1 < count :=
  firstAccepted_lt (fun source => source.next32.1.toNat_lt) hcount _ _

/-- A place in a list is below its length. -/
theorem place_lt (hcount : 0 < count) (source : Source) : (place count source).1 < count := by
  unfold place
  split
  · exact below32_lt hcount source
  · exact below64_lt hcount source

/-- Every number below the count is reached by one 64-bit word. -/
theorem reaches_below64 (hn : n < count) (hcount : count ≤ UInt64.size) :
    Reaches (below64 count) n := by
  have hfits : count ≤ 1 <<< 64 := hcount
  obtain ⟨word, hword, hattempt⟩ := exists_attempt_eq hn hfits
  have htoNat : (UInt64.ofNat word).toNat = word := UInt64.toNat_ofNat_of_lt' hword
  refine ⟨[UInt64.ofNat word], fun rest => ?_⟩
  let draw : Draw Nat := UInt64.toNat <$> word64
  have haccepted : attempt 64 count (draw (.listed (UInt64.ofNat word :: rest))).1 = some n := by
    have hdrawn : (draw (.listed (UInt64.ofNat word :: rest))).1 = (UInt64.ofNat word).toNat := rfl
    rw [hdrawn, htoNat, hattempt]
  exact firstAccepted_of_some haccepted _

/-- Every number below the count is reached by one 32-bit word. -/
theorem reaches_below32 (hn : n < count) (hcount : count ≤ UInt32.size) :
    Reaches (below32 count) n := by
  have hfits : count ≤ 1 <<< 32 := hcount
  obtain ⟨word, hword, hattempt⟩ := exists_attempt_eq hn hfits
  have htoNat : (UInt64.ofNat word).toUInt32.toNat = word := by
    have hlow : word < 2 ^ 32 := hword
    rw [UInt64.toNat_toUInt32, UInt64.toNat_ofNat_of_lt' (Nat.lt_trans hlow (by decide)),
      Nat.mod_eq_of_lt hlow]
  refine ⟨[UInt64.ofNat word], fun rest => ?_⟩
  let draw : Draw Nat := UInt32.toNat <$> word32
  have haccepted : attempt 32 count (draw (.listed (UInt64.ofNat word :: rest))).1 = some n := by
    have hdrawn : (draw (.listed (UInt64.ofNat word :: rest))).1 =
        (UInt64.ofNat word).toUInt32.toNat := rfl
    rw [hdrawn, htoNat, hattempt]
  exact firstAccepted_of_some haccepted _

/-- Every place in a list is reached, if its length is a 64-bit number. -/
theorem reaches_place (hn : n < count) (hcount : count ≤ UInt64.size) :
    Reaches (place count) n := by
  unfold place
  split
  · next hsmall => exact reaches_below32 hn (Nat.le_of_lt hsmall)
  · exact reaches_below64 hn hcount

end Below

section Tables

variable {table : List α}

/-- Nothing is drawn from an empty table. -/
theorem pick_nil : pick ([] : List α) = pure none := rfl

/-- From a table that has entries one is picked. -/
theorem exists_of_pick (hne : table ≠ []) (source : Source) :
    ∃ x ∈ table, (pick table source).1 = some x := by
  have hpick : (pick table source).1 = table[(place table.length source).1]? := by
    cases table with
    | nil => exact absurd rfl hne
    | cons first others => rfl
  have hlt : (place table.length source).1 < table.length :=
    place_lt (List.length_pos_iff.mpr hne) source
  rw [hpick, List.getElem?_eq_getElem hlt]
  exact ⟨_, List.getElem_mem hlt, rfl⟩

/-- Every entry of a table is reached. -/
theorem reaches_pick {x : α} (hx : x ∈ table) (hsize : table.length < UInt64.size) :
    Reaches (pick table) (some x) := by
  obtain ⟨n, hn⟩ := List.getElem?_of_mem hx
  have hlt : n < table.length := (List.getElem?_eq_some_iff.mp hn).1
  have hpick : pick table = place table.length >>= fun n => pure table[n]? := by
    cases table with
    | nil => cases hx
    | cons first others => rfl
  rw [hpick, ← hn]
  exact (reaches_place hlt (Nat.le_of_lt hsize)).bind (reaches_pure _)

end Tables

section Orders

/-- After an exchange each of the two places holds what the other held, and all else stays. -/
theorem getElem?_swapIfInBounds {xs : Array α} {i j : Nat} (hi : i < xs.size) (hj : j < xs.size)
    (k : Nat) : (xs.swapIfInBounds i j)[k]? =
      if j = k then some xs[i] else if i = k then some xs[j] else xs[k]? := by
  rw [Array.swapIfInBounds_def, dif_pos hi, dif_pos hj, Array.getElem?_swap hi hj]

/-- If two arrays of the same entries agree behind a place, the entry of one at that place
stands at or before it in the other. -/
theorem exists_getElem_eq_of_perm {xs ys : Array α} (hperm : ys.Perm xs) {last : Nat}
    (hagree : ∀ i, last < i → ys[i]? = xs[i]?) (hlast : last < ys.size) :
    ∃ n, n ≤ last ∧ ∃ h : n < xs.size, xs[n] = ys[last] := by
  have hdrop : ys.toList.drop (last + 1) = xs.toList.drop (last + 1) := by
    refine List.ext_getElem? fun i => ?_
    rw [List.getElem?_drop, List.getElem?_drop, Array.getElem?_toList, Array.getElem?_toList]
    exact hagree _ (by omega)
  have htake : (ys.toList.take (last + 1)).Perm (xs.toList.take (last + 1)) := by
    have hall := Array.perm_iff_toList_perm.mp hperm
    rw [← List.take_append_drop (last + 1) ys.toList, ← List.take_append_drop (last + 1) xs.toList,
      hdrop] at hall
    exact (List.perm_append_right_iff _).mp hall
  have hmem : ys[last] ∈ ys.toList.take (last + 1) :=
    List.mem_take_iff_getElem.mpr ⟨last, by simp; omega, by simp⟩
  obtain ⟨n, hn, heq⟩ := List.mem_take_iff_getElem.mp (htake.mem_iff.mp hmem)
  have hbounds : n < min (last + 1) xs.size := by simpa using hn
  exact ⟨n, by omega, by omega, by simpa using heq⟩

/-- Arrays of the same entries that agree behind the first place are equal. -/
theorem eq_of_perm_of_agree {xs ys : Array α} (hperm : ys.Perm xs)
    (hagree : ∀ i, 0 < i → ys[i]? = xs[i]?) : ys = xs := by
  refine Array.ext_getElem? fun i => ?_
  cases i with
  | succ i => exact hagree _ (Nat.succ_pos i)
  | zero =>
    by_cases hsize : 0 < ys.size
    · obtain ⟨n, hn, h, heq⟩ := exists_getElem_eq_of_perm hperm hagree hsize
      obtain rfl : n = 0 := Nat.le_zero.mp hn
      rw [Array.getElem?_eq_getElem hsize, Array.getElem?_eq_getElem h, heq]
    · have hsizes : ys.size = xs.size := hperm.size_eq
      rw [Array.getElem?_eq_none (by omega), Array.getElem?_eq_none (by omega)]

/-- **Exchanges reach every order.**  The places behind `last` are settled.  Going down, the
entry that is wanted at `last` still stands at or before it, and is brought there by one
exchange. -/
theorem reaches_shuffleFrom {last : Nat} {xs ys : Array α} (hperm : ys.Perm xs)
    (hagree : ∀ i, last < i → ys[i]? = xs[i]?) (hlast : last ≤ xs.size - 1)
    (hsize : xs.size ≤ UInt64.size) : Reaches (shuffleFrom last xs) ys := by
  induction last generalizing xs with
  | zero =>
    rw [eq_of_perm_of_agree hperm hagree]
    exact reaches_pure xs
  | succ last ih =>
    have hsizes : ys.size = xs.size := hperm.size_eq
    obtain ⟨n, hn, hbound, heq⟩ :=
      exists_getElem_eq_of_perm hperm hagree (hsizes ▸ (by omega : last + 1 < xs.size))
    have hswapped : (xs.swapIfInBounds (last + 1) n).size = xs.size := Array.size_swapIfInBounds
    have hswap : ys.Perm (xs.swapIfInBounds (last + 1) n) :=
      hperm.trans (swapIfInBounds_perm xs (last + 1) n).symm
    have hsettled : ∀ i, last < i → ys[i]? = (xs.swapIfInBounds (last + 1) n)[i]? := by
      intro i hi
      rw [getElem?_swapIfInBounds (by omega) hbound]
      by_cases htop : i = last + 1
      · subst htop
        rw [Array.getElem?_eq_getElem (by omega)]
        by_cases hself : n = last + 1
        · subst hself
          rw [if_pos rfl, heq]
        · rw [if_neg hself, if_pos rfl, heq]
      · rw [if_neg (by omega), if_neg (by omega)]
        exact hagree i (by omega)
    have hplace : Reaches (place (last + 2)) n := reaches_place (by omega) (by omega)
    exact hplace.bind (ih hswap hsettled (by omega) (by omega))

/-- **A shuffle reaches every order** of a list whose length is a 64-bit number. -/
theorem reaches_shuffle {xs ys : List α} (hperm : ys.Perm xs) (hsize : xs.length ≤ UInt64.size) :
    Reaches (shuffle xs) ys := by
  have harrays : ys.toArray.Perm xs.toArray := Array.perm_iff_toList_perm.mpr hperm
  have hagree : ∀ i, xs.length - 1 < i → ys.toArray[i]? = xs.toArray[i]? := by
    intro i hi
    have hlength : ys.length = xs.length := hperm.length_eq
    rw [List.getElem?_toArray, List.getElem?_toArray, List.getElem?_eq_none (by omega),
      List.getElem?_eq_none (by omega)]
  have hfrom : Reaches (shuffleFrom (xs.length - 1) xs.toArray) ys.toArray :=
    reaches_shuffleFrom harrays hagree (by simp) hsize
  exact hfrom.bind (reaches_pure _)

end Orders

end Draw

end Randomness

namespace SizeRange

/-- A size that is drawn lies in its range. -/
theorem sample_bounds (r : SizeRange) (source : Source) :
    r.min.toNat ≤ (r.sample source).1 ∧ (r.sample source).1 ≤ r.max.toNat := by
  have hsample : (r.sample source).1 = r.min.toNat + (Draw.below64 r.width source).1 := rfl
  have hlt : (Draw.below64 r.width source).1 < r.width := Draw.below64_lt r.width_bounds.1 source
  have hordered : r.min.toNat ≤ r.max.toNat := UInt64.le_iff_toNat_le.mp r.ordered
  have hwidth : r.width = r.max.toNat - r.min.toNat + 1 := rfl
  omega

/-- Every size of a range is reached. -/
theorem reaches_sample {r : SizeRange} {n : Nat} (hmin : r.min.toNat ≤ n) (hmax : n ≤ r.max.toNat) :
    r.sample.Reaches n := by
  have hbelow : Draw.Reaches (Draw.below64 r.width) (n - r.min.toNat) :=
    Draw.reaches_below64 (by rw [width]; omega) r.width_bounds.2
  have hsum : Draw.Reaches (pure (r.min.toNat + (n - r.min.toNat))) n := by
    rw [show r.min.toNat + (n - r.min.toNat) = n by omega]
    exact Draw.reaches_pure n
  exact hbelow.bind hsum

end SizeRange

end EngineFuzz
