import EngineFuzz.Harness.Layout
import EngineFuzz.Proofs.UuidText
import Mathlib.Data.Set.Card
import Mathlib.Data.Fintype.Pi
import Mathlib.Data.Nat.Bitwise
/-!
# The bits of markers

A marker is an identifier of version 4.  Six of its 128 bits say so and are the same in all of
them; the others are those of sixteen drawn words, each of which gives its low byte.  Octet by
octet the fixed bits are put over the drawn ones, so two markers are equal if their words agree
in the free bits.

The loop marker is drawn first, and the fault marker from the words behind it.  As no word
serves both, each pair of identifiers of version 4 is drawn from some words.

* `stamp`, `testBit_stamp` — what becomes of a drawn byte, bit by bit;
* `ofRandomOctets_eq_iff` — which bytes make the same identifier;
* `Draw.many_append`, `HarnessIds.draw_eq` — the words of the loop marker, and then those of the
  fault marker;
* `ncard_isVersionFour` — how many identifiers of version 4 there are;
* `markers_carry_draws` — the form of markers, and what two sources must have in common for
  equal ones.
-/

namespace EngineFuzz

open Randomness

namespace Uuid

section Octets

/-- A bit that is drawn: any but the four that say "version 4" and the two for the common layout. -/
def IsFree (place : Fin 16) (bit : Fin 8) : Prop :=
  ¬(place = 6 ∧ 4 ≤ bit) ∧ ¬(place = 8 ∧ 6 ≤ bit)

instance (place : Fin 16) (bit : Fin 8) : Decidable (IsFree place bit) :=
  inferInstanceAs (Decidable (¬_ ∧ ¬_))

/-- Whether a bit that is not drawn is set. -/
def isSet (place : Fin 16) (bit : Fin 8) : Bool := place = 6 && bit = 6 || place = 8 && bit = 7

/-- What becomes of a drawn byte at a place. -/
def stamp (place : Fin 16) (b : UInt8) : UInt8 :=
  if place = 6 then b &&& 0x0f ||| 0x40 else if place = 8 then b &&& 0x3f ||| 0x80 else b

variable {place : Fin 16} {b c : UInt8}

/-- Bytes with the same bits are equal. -/
theorem eq_of_testBit_eq (h : ∀ bit : Fin 8, b.toNat.testBit bit = c.toNat.testBit bit) :
    b = c := by
  refine UInt8.toNat_inj.mp (Nat.eq_of_testBit_eq fun bit => ?_)
  by_cases hbit : bit < 8
  · exact h ⟨bit, hbit⟩
  · have hbeyond : ∀ d : UInt8, d.toNat.testBit bit = false := by
      intro d
      apply Nat.testBit_lt_two_pow
      exact Nat.lt_of_lt_of_le d.toNat_lt (Nat.pow_le_pow_right (by decide) (by omega))
    rw [hbeyond, hbeyond]

private theorem testBit_version : ∀ (n : Fin 256) (bit : Fin 8),
    (UInt8.ofNat n &&& 0x0f ||| 0x40).toNat.testBit bit =
      if 4 ≤ bit then decide (bit = 6) else (UInt8.ofNat n).toNat.testBit bit := by
  decide +kernel

private theorem testBit_layout : ∀ (n : Fin 256) (bit : Fin 8),
    (UInt8.ofNat n &&& 0x3f ||| 0x80).toNat.testBit bit =
      if 6 ≤ bit then decide (bit = 7) else (UInt8.ofNat n).toNat.testBit bit := by
  decide +kernel

/-- **The free bits are left as they were drawn**, and the others do not depend on the byte. -/
theorem testBit_stamp (place : Fin 16) (b : UInt8) (bit : Fin 8) :
    (stamp place b).toNat.testBit bit =
      if IsFree place bit then b.toNat.testBit bit else isSet place bit := by
  have hofNat : UInt8.ofNat b.toNat = b := UInt8.ofNat_toNat
  unfold stamp
  split
  · next hsix =>
    subst hsix
    have hbit := testBit_version ⟨b.toNat, b.toNat_lt⟩ bit
    rw [hofNat] at hbit
    rw [hbit]
    by_cases hfixed : 4 ≤ bit <;> simp [IsFree, isSet, hfixed]
  · next hsix =>
    split
    · next height =>
      subst height
      have hbit := testBit_layout ⟨b.toNat, b.toNat_lt⟩ bit
      rw [hofNat] at hbit
      rw [hbit]
      by_cases hfixed : 6 ≤ bit <;> simp [IsFree, isSet, hfixed]
    · next height => simp [IsFree, hsix, height]

/-- Two bytes become the same if they agree in the free bits, and only then. -/
theorem stamp_eq_iff : stamp place b = stamp place c ↔
    ∀ bit, IsFree place bit → b.toNat.testBit bit = c.toNat.testBit bit := by
  constructor
  · intro h bit hfree
    have hbit := congrArg (fun d => d.toNat.testBit bit) h
    simpa only [testBit_stamp, if_pos hfree] using hbit
  · intro h
    apply eq_of_testBit_eq
    intro bit
    rw [testBit_stamp, testBit_stamp]
    split
    · next hfree => exact h bit hfree
    · rfl

end Octets

section Identifiers

variable {u v : Uuid} {octets others : Vector UInt8 16}

/-- The version of an identifier, which is the high half of octet 6. -/
def version (u : Uuid) : UInt8 := u.octets[(6 : Fin 16)] >>> 4

/-- The layout of an identifier, which the two top bits of octet 8 tell. -/
def layout (u : Uuid) : UInt8 := u.octets[(8 : Fin 16)] >>> 6

/-- An identifier of version 4 in the common layout. -/
def IsVersionFour (u : Uuid) : Prop := u.version = 4 ∧ u.layout = 2

/-- Each octet is made of the byte at its place. -/
theorem getElem_ofRandomOctets (octets : Vector UInt8 16) (place : Fin 16) :
    (ofRandomOctets octets).octets[place] = stamp place octets[place] := by
  obtain ⟨place, hplace⟩ := place
  simp only [ofRandomOctets, stamp, Fin.getElem_fin, Vector.getElem_set, Fin.ext_iff]
  grind

/-- The octets are those that the bytes become, one by one. -/
theorem ofRandomOctets_eq_iff_stamp : ofRandomOctets octets = u ↔
    ∀ place : Fin 16, stamp place octets[place] = u.octets[place] := by
  constructor
  · intro h place
    rw [← h, getElem_ofRandomOctets]
  · intro h
    obtain ⟨made⟩ := u
    refine congrArg Uuid.mk (Vector.ext fun place hplace => ?_)
    exact (getElem_ofRandomOctets octets ⟨place, hplace⟩).trans (h ⟨place, hplace⟩)

/-- **Equal identifiers**: bytes make the same identifier if they agree in the free bits, and
only then. -/
theorem ofRandomOctets_eq_iff : ofRandomOctets octets = ofRandomOctets others ↔
    ∀ place bit, IsFree place bit →
      octets[place].toNat.testBit bit = others[place].toNat.testBit bit := by
  rw [ofRandomOctets_eq_iff_stamp]
  refine forall_congr' fun place => ?_
  rw [getElem_ofRandomOctets, stamp_eq_iff]

private theorem shiftRight_four_ofNat_eq_iff : ∀ n : Fin 256, UInt8.ofNat n >>> 4 = 4 ↔
    ∀ bit : Fin 8, 4 ≤ bit → (UInt8.ofNat n).toNat.testBit bit = decide (bit = 6) := by
  decide +kernel

private theorem shiftRight_six_ofNat_eq_iff : ∀ n : Fin 256, UInt8.ofNat n >>> 6 = 2 ↔
    ∀ bit : Fin 8, 6 ≤ bit → (UInt8.ofNat n).toNat.testBit bit = decide (bit = 7) := by
  decide +kernel

/-- The high half of an octet, bit by bit. -/
theorem shiftRight_four_eq_iff (b : UInt8) : b >>> 4 = 4 ↔
    ∀ bit : Fin 8, 4 ≤ bit → b.toNat.testBit bit = decide (bit = 6) := by
  have hofNat : UInt8.ofNat b.toNat = b := UInt8.ofNat_toNat
  have hbits := shiftRight_four_ofNat_eq_iff ⟨b.toNat, b.toNat_lt⟩
  rwa [hofNat] at hbits

/-- The two top bits of an octet. -/
theorem shiftRight_six_eq_iff (b : UInt8) : b >>> 6 = 2 ↔
    ∀ bit : Fin 8, 6 ≤ bit → b.toNat.testBit bit = decide (bit = 7) := by
  have hofNat : UInt8.ofNat b.toNat = b := UInt8.ofNat_toNat
  have hbits := shiftRight_six_ofNat_eq_iff ⟨b.toNat, b.toNat_lt⟩
  rwa [hofNat] at hbits

/-- **Version 4 is a matter of the fixed bits.** -/
theorem isVersionFour_iff : u.IsVersionFour ↔
    ∀ place bit, ¬IsFree place bit → u.octets[place].toNat.testBit bit = isSet place bit := by
  rw [IsVersionFour, version, shiftRight_four_eq_iff, layout, shiftRight_six_eq_iff]
  constructor
  · intro ⟨hversion, hlayout⟩ place bit hfixed
    by_cases hsix : place = 6
    · subst hsix
      have hbit : 4 ≤ bit := by simpa [IsFree] using hfixed
      exact (hversion bit hbit).trans (by simp [isSet])
    · by_cases height : place = 8
      · subst height
        have hbit : 6 ≤ bit := by simpa [IsFree] using hfixed
        exact (hlayout bit hbit).trans (by simp [isSet])
      · exact absurd ⟨fun h => hsix h.1, fun h => height h.1⟩ hfixed
  · intro h
    constructor
    · intro bit hbit
      exact (h 6 bit (by simp [IsFree, hbit])).trans (by simp [isSet])
    · intro bit hbit
      exact (h 8 bit (by simp [IsFree, hbit])).trans (by simp [isSet])

/-- What is drawn is of version 4. -/
theorem isVersionFour_ofRandomOctets (octets : Vector UInt8 16) :
    (ofRandomOctets octets).IsVersionFour := by
  rw [isVersionFour_iff]
  intro place bit hfixed
  rw [getElem_ofRandomOctets, testBit_stamp, if_neg hfixed]

/-- An identifier of version 4 is made from its own octets. -/
theorem IsVersionFour.ofRandomOctets_octets (h : u.IsVersionFour) :
    ofRandomOctets u.octets = u := by
  rw [ofRandomOctets_eq_iff_stamp]
  intro place
  apply eq_of_testBit_eq
  intro bit
  rw [testBit_stamp]
  split
  · rfl
  · next hfixed => exact (isVersionFour_iff.mp h place bit hfixed).symm

/-- A byte with given bits. -/
def byteOf (bits : Fin 8 → Bool) : UInt8 := UInt8.ofNat (Nat.ofBits bits)

/-- The bits of a byte are those that it is made of. -/
theorem testBit_byteOf (bits : Fin 8 → Bool) (bit : Fin 8) :
    (byteOf bits).toNat.testBit bit = bits bit := by
  have hlt : Nat.ofBits bits < 2 ^ 8 := Nat.ofBits_lt_two_pow bits
  rw [byteOf, UInt8.toNat_ofNat_of_lt' hlt, Nat.testBit_ofBits_lt bits bit bit.isLt]

/-- The places of free bits. -/
abbrev FreeBit : Type := {place : Fin 16 × Fin 8 // IsFree place.1 place.2}

/-- There are 122 free bits. -/
theorem card_freeBit : Fintype.card FreeBit = 122 := by decide +kernel

/-- The free bits of an identifier. -/
def freeBits (u : Uuid) (place : FreeBit) : Bool := u.octets[place.1.1].toNat.testBit place.1.2

/-- Identifiers of version 4 with the same free bits are equal. -/
theorem IsVersionFour.eq_of_freeBits (h : u.IsVersionFour) (h' : v.IsVersionFour)
    (hbits : u.freeBits = v.freeBits) : u = v := by
  rw [← h.ofRandomOctets_octets, ← h'.ofRandomOctets_octets, ofRandomOctets_eq_iff]
  exact fun place bit hfree => congrFun hbits ⟨(place, bit), hfree⟩

/-- All values of the free bits belong to some identifier. -/
theorem exists_freeBits_eq (bits : FreeBit → Bool) :
    ∃ u : Uuid, u.IsVersionFour ∧ u.freeBits = bits := by
  let octets : Vector UInt8 16 := Vector.ofFn fun place =>
    byteOf fun bit => if hfree : IsFree place bit then bits ⟨(place, bit), hfree⟩ else false
  refine ⟨ofRandomOctets octets, isVersionFour_ofRandomOctets octets, ?_⟩
  funext ⟨⟨place, bit⟩, hfree⟩
  rw [freeBits, getElem_ofRandomOctets, testBit_stamp, if_pos hfree]
  simp only [octets, Fin.getElem_fin, Vector.getElem_ofFn, testBit_byteOf]
  exact dif_pos hfree

/-- **The free bits make the number**: there is one identifier of version 4 for each of their
values. -/
theorem ncard_isVersionFour : {u : Uuid | u.IsVersionFour}.ncard = 2 ^ 122 := by
  let bitsOf : {u : Uuid | u.IsVersionFour} → FreeBit → Bool := fun u => u.1.freeBits
  have hbijective : Function.Bijective bitsOf := by
    constructor
    · intro u v hbits
      exact Subtype.ext (u.2.eq_of_freeBits v.2 hbits)
    · intro bits
      obtain ⟨u, hversion, hbits⟩ := exists_freeBits_eq bits
      exact ⟨⟨u, hversion⟩, hbits⟩
  calc {u : Uuid | u.IsVersionFour}.ncard
      = Nat.card {u : Uuid | u.IsVersionFour} := (Nat.card_coe_set_eq _).symm
    _ = Nat.card (FreeBit → Bool) := Nat.card_eq_of_bijective bitsOf hbijective
    _ = 2 ^ 122 := by
      rw [Nat.card_eq_fintype_card, Fintype.card_fun, Fintype.card_bool, card_freeBit]

end Identifiers

end Uuid

section Draws

namespace Randomness.Draw

variable {α β : Type}

/-- The last of several draws is made where the others leave the source. -/
theorem many_succ_run (draw : Draw α) (n : Nat) (source : Source) :
    many draw (n + 1) source =
      ((many draw n source).1.push (draw (many draw n source).2).1,
        (draw (many draw n source).2).2) := rfl

/-- Draws whose values are changed are the same draws. -/
theorem many_map (f : α → β) (draw : Draw α) (n : Nat) (source : Source) :
    many (f <$> draw) n source = ((many draw n source).1.map f, (many draw n source).2) := by
  induction n with
  | zero =>
    change (#v[], source) = (Vector.map f #v[], source)
    rw [Vector.map_empty]
  | succ n ih =>
    rw [many_succ_run, many_succ_run, ih, Vector.map_push]
    rfl

/-- **More draws** are the first ones, and the others from where these leave the source. -/
theorem many_append (draw : Draw α) (m n : Nat) (source : Source) :
    many draw (m + n) source =
      let first := many draw m source
      let others := many draw n first.2
      (first.1 ++ others.1, others.2) := by
  induction n with
  | zero =>
    change many draw m source = ((many draw m source).1 ++ #v[], (many draw m source).2)
    rw [Vector.append_empty]
    rfl
  | succ n ih =>
    refine (many_succ_run draw (m + n) source).trans ?_
    simp only [ih, many_succ_run]
    rw [Vector.append_push]

end Randomness.Draw

/-- The words that are drawn for an identifier. -/
def Uuid.words (source : Source) : Vector UInt32 16 × Source := Draw.many Draw.word32 16 source

/-- An identifier is made from sixteen bytes. -/
theorem Uuid.draw_run (source : Source) :
    Uuid.draw source =
      (ofRandomOctets (Draw.many Draw.byte 16 source).1, (Draw.many Draw.byte 16 source).2) := rfl

/-- An identifier is made from the low bytes of sixteen words. -/
theorem Uuid.draw_eq (source : Source) :
    Uuid.draw source = (ofRandomOctets ((words source).1.map UInt32.toUInt8),
      (words source).2) := by
  have hbyte : Draw.byte = UInt32.toUInt8 <$> Draw.word32 := rfl
  rw [draw_run, hbyte, Draw.many_map]
  rfl

/-- An identifier of version 4 is drawn where its octets are listed. -/
theorem Uuid.IsVersionFour.draw_listed {u : Uuid} (h : u.IsVersionFour) (rest : List UInt64) :
    Uuid.draw (.listed (u.octets.toList.map UInt8.toUInt64 ++ rest)) = (u, .listed rest) := by
  rw [draw_run, Draw.many_byte_listed, h.ofRandomOctets_octets]

/-- Thirty-two words are sixteen and then sixteen more. -/
theorem Uuid.many_word32_eq (source : Source) :
    Draw.many Draw.word32 (16 + 16) source =
      ((words source).1 ++ (words (words source).2).1, (words (words source).2).2) :=
  Draw.many_append Draw.word32 16 16 source

/-- The first sixteen of thirty-two words. -/
theorem Uuid.getElem_words (source : Source) (place : Fin 16) :
    (words source).1[place] = (Draw.many Draw.word32 32 source).1[place.val] := by
  have hall := congrArg Prod.fst (many_word32_eq source)
  refine Eq.trans ?_ (congrArg (fun all : Vector UInt32 32 => all[place.val]) hall).symm
  exact (Vector.getElem_append_left place.isLt).symm

/-- The last sixteen of thirty-two words. -/
theorem Uuid.getElem_words_words (source : Source) (place : Fin 16) :
    (words (words source).2).1[place] = (Draw.many Draw.word32 32 source).1[16 + place.val] := by
  have hall := congrArg Prod.fst (many_word32_eq source)
  refine Eq.trans ?_ (congrArg (fun all : Vector UInt32 32 => all[16 + place.val]) hall).symm
  refine Eq.trans ?_ (Vector.getElem_append_right (by omega) (by omega)).symm
  simp

/-- The loop marker is drawn first, and the fault marker from where it leaves the source. -/
theorem HarnessIds.draw_run (source : Source) :
    HarnessIds.draw source =
      (⟨(Uuid.draw source).1, (Uuid.draw (Uuid.draw source).2).1⟩,
        (Uuid.draw (Uuid.draw source).2).2) := rfl

/-- Markers are made from thirty-two words, sixteen for each. -/
theorem HarnessIds.draw_eq (source : Source) :
    HarnessIds.draw source =
      let forLoop := Uuid.words source
      let forFault := Uuid.words forLoop.2
      (⟨Uuid.ofRandomOctets (forLoop.1.map UInt32.toUInt8),
        Uuid.ofRandomOctets (forFault.1.map UInt32.toUInt8)⟩, forFault.2) := by
  rw [draw_run, Uuid.draw_eq, Uuid.draw_eq]

end Draws

section Markers

namespace Uuid

/-- Words that agree in the free bits of their low bytes. -/
def AgreeFreely (words others : Fin 16 → UInt32) : Prop :=
  ∀ place bit, IsFree place bit →
    (words place).toNat.testBit bit = (others place).toNat.testBit bit

/-- The low byte of a word has the low bits of the word. -/
theorem testBit_toUInt8 (word : UInt32) (bit : Fin 8) :
    word.toUInt8.toNat.testBit bit = word.toNat.testBit bit := by
  rw [UInt32.toNat_toUInt8, Nat.testBit_mod_two_pow, decide_eq_true bit.isLt, Bool.true_and]

/-- Words make the same identifier if their low bytes agree in the free bits, and only then. -/
theorem ofRandomOctets_map_eq_iff {words others : Vector UInt32 16} :
    ofRandomOctets (words.map UInt32.toUInt8) = ofRandomOctets (others.map UInt32.toUInt8) ↔
      AgreeFreely (fun place => words[place]) fun place => others[place] := by
  rw [ofRandomOctets_eq_iff]
  refine forall_congr' fun place => forall_congr' fun bit => imp_congr_right fun _ => ?_
  rw [Fin.getElem_fin, Fin.getElem_fin, Vector.getElem_map, Vector.getElem_map, testBit_toUInt8,
    testBit_toUInt8]
  rfl

/-- Two spellings, one with digits in groups of 8, 4, 4, 4 and 12 between hyphens, and the other
with the same digits and no hyphens.  All letters are lower-case. -/
def IsGrouped (hyphenated simple : List Char) : Prop :=
  ∃ a b c d e : List Char,
    hyphenated = a ++ '-' :: b ++ '-' :: c ++ '-' :: d ++ '-' :: e ∧
      simple = a ++ b ++ c ++ d ++ e ∧
      [a, b, c, d, e].map List.length = [8, 4, 4, 4, 12] ∧ ∀ digit ∈ simple, digit ∈ hexDigits

/-- The two written forms are the same digits with hyphens and without. -/
theorem isGrouped (u : Uuid) : IsGrouped u.hyphenatedChars u.simpleChars := by
  refine ⟨_, _, _, _, _, rfl, ?_, ?_, fun _ => mem_simpleChars⟩
  · simp only [List.append_assoc]
    exact (append_groups u.simpleChars).symm
  · simp [length_simpleChars]

end Uuid

/-- **Every pair of identifiers of version 4 is drawn** from some words. -/
theorem HarnessIds.exists_draw_eq_iff {ids : HarnessIds} :
    (∃ random, (HarnessIds.draw random).1 = ids) ↔
      ids.loop.IsVersionFour ∧ ids.fault.IsVersionFour := by
  constructor
  · intro ⟨random, h⟩
    rw [← h, HarnessIds.draw_eq]
    exact ⟨Uuid.isVersionFour_ofRandomOctets _, Uuid.isVersionFour_ofRandomOctets _⟩
  · intro ⟨hloop, hfault⟩
    refine ⟨.listed (ids.loop.octets.toList.map UInt8.toUInt64 ++
      (ids.fault.octets.toList.map UInt8.toUInt64 ++ [])), ?_⟩
    rw [draw_run, hloop.draw_listed, hfault.draw_listed]

open Uuid in
/-- **Markers carry their draws.**  From every state of the random source, the two markers take
thirty-two words, and both are of version 4.  An identifier is written in two ways, each of
which tells it from all others: lower-case digits in groups of 8, 4, 4, 4 and 12 with hyphens
between, 36 characters in all, and the same without hyphens.  From two states the loop markers
are equal exactly if the low bytes of the first sixteen words agree in all but the six fixed
bits, and the fault markers exactly if those of the next sixteen do.  So each pair of
identifiers of version 4 can be drawn, and each marker is one of `2 ^ 122`. -/
theorem markers_carry_draws :
    (∀ random : Source,
        let drawn := HarnessIds.draw random
        drawn.2 = (Draw.many Draw.word32 32 random).2 ∧
          drawn.1.loop.IsVersionFour ∧ drawn.1.fault.IsVersionFour) ∧
      (∀ u : Uuid, u.hyphenated.length = 36 ∧ IsGrouped u.hyphenated.toList u.simple.toList ∧
        u.simple = String.ofList (u.hyphenated.toList.filter (· ≠ '-'))) ∧
      (∀ u v : Uuid, (u.hyphenated = v.hyphenated ↔ u = v) ∧ (u.simple = v.simple ↔ u = v)) ∧
      (∀ random other : Source,
        let ids := (HarnessIds.draw random).1
        let otherIds := (HarnessIds.draw other).1
        let words := (Draw.many Draw.word32 32 random).1
        let others := (Draw.many Draw.word32 32 other).1
        (ids.loop = otherIds.loop ↔
            AgreeFreely (fun place => words[place.val]) fun place => others[place.val]) ∧
          (ids.fault = otherIds.fault ↔
            AgreeFreely (fun place => words[16 + place.val]) fun place => others[16 + place.val])) ∧
      (∀ loop fault : Uuid, (∃ random, (HarnessIds.draw random).1 = ⟨loop, fault⟩) ↔
        loop.IsVersionFour ∧ fault.IsVersionFour) ∧
      {u : Uuid | u.IsVersionFour}.ncard = 2 ^ 122 := by
  refine ⟨?versions, ?forms, ?determined, ?agreement, fun _ _ => HarnessIds.exists_draw_eq_iff,
    ncard_isVersionFour⟩
  case versions =>
    intro random drawn
    refine ⟨?_, HarnessIds.exists_draw_eq_iff.mp ⟨random, rfl⟩⟩
    exact (congrArg Prod.snd (HarnessIds.draw_eq random)).trans
      (congrArg Prod.snd (many_word32_eq random)).symm
  case forms =>
    intro u
    refine ⟨?_, ?_, ?_⟩
    · rw [hyphenated, String.length_ofList, length_hyphenatedChars]
    · rw [hyphenated, simple, String.toList_ofList, String.toList_ofList]
      exact u.isGrouped
    · rw [hyphenated, simple, String.toList_ofList, filter_hyphenatedChars]
  case determined =>
    intro u v
    constructor
    · exact hyphenated_injective.eq_iff
    · rw [simple, simple, String.ofList_inj]
      exact simpleChars_injective.eq_iff
  case agreement =>
    intro random other ids otherIds words others
    have hfirst : ∀ source, (fun place : Fin 16 => (Uuid.words source).1[place]) = _ :=
      fun source => funext (getElem_words source)
    have hnext : ∀ source,
        (fun place : Fin 16 => (Uuid.words (Uuid.words source).2).1[place]) = _ :=
      fun source => funext (getElem_words_words source)
    constructor
    · simp only [ids, otherIds, words, others, HarnessIds.draw_eq,
        ofRandomOctets_map_eq_iff, hfirst]
    · simp only [ids, otherIds, words, others, HarnessIds.draw_eq, ofRandomOctets_map_eq_iff, hnext]

end Markers

end EngineFuzz
