import EngineFuzz.Text.Utf8
/-!
# What a repair can bring in

The octets below 0x80 mean something to the system: among them are the zero octet and the slash.
A repair never brings one in.  Whatever bytes are read as text with replacements, each octet
below 0x80 of that text was among the bytes.

The invariant is about a character that has begun: whichever bytes may still come, the number
that they finish is at least 0x80 and is a code point.  A number that is none would become the
zero character.

* `Unfinished.Sound` — the invariant;
* `start_harmless`, `continue_harmless` — one byte preserves it;
* `mem_of_mem_repairFrom` — a run of the machine from any sound state;
* `mem_of_mem_lossy` — the text that is read.
-/

namespace EngineFuzz.Text

/-- The number of ways in which a character can go on for so many bytes. -/
def ways : (count : Nat) → Nat
  | 0 => 1
  | count + 1 => 64 * ways count

/-- The least number that an unfinished character can become. -/
def Unfinished.least (u : Unfinished) : Nat :=
  (u.bits * 64 + (u.low.toNat - 0x80)) * ways (u.due - 1)

/-- The least number above all that an unfinished character can become. -/
def Unfinished.beyond (u : Unfinished) : Nat :=
  (u.bits * 64 + (u.high.toNat - 0x80) + 1) * ways (u.due - 1)

/-- Every character that an unfinished one can become is a code point, and none is below 0x80. -/
structure Unfinished.Sound (u : Unfinished) : Prop where
  due_pos : 1 ≤ u.due
  due_le : u.due ≤ 3
  low_ge : 0x80 ≤ u.low.toNat
  high_le : u.high.toNat ≤ 0xbf
  least_ge : 0x80 ≤ u.least
  is_scalar : u.beyond ≤ 0xd800 ∨ 0xe000 ≤ u.least ∧ u.beyond ≤ 0x110000

/-- What a byte may bring about: a character below 0x80 only if it is that byte itself, and no
character that could become one. -/
structure Unfinished.Harmless (b : UInt8) (effect : List Char × Option Unfinished) : Prop where
  written : ∀ c ∈ effect.1, c.toNat < 0x80 → c.toNat = b.toNat
  next : ∀ u, effect.2 = some u → u.Sound

private theorem toNat_and_lowBits (b : UInt8) :
    (b &&& 0x3f).toNat = b.toNat % 64 ∧ (b &&& 0x1f).toNat = b.toNat % 32 ∧
      (b &&& 0x0f).toNat = b.toNat % 16 ∧ (b &&& 0x07).toNat = b.toNat % 8 := by
  simp only [UInt8.toNat_and]
  exact ⟨Nat.and_two_pow_sub_one_eq_mod _ 6, Nat.and_two_pow_sub_one_eq_mod _ 5,
    Nat.and_two_pow_sub_one_eq_mod _ 4, Nat.and_two_pow_sub_one_eq_mod _ 3⟩

private theorem toNat_ofNat_of_scalar {n : Nat} (h : n < 0xd800 ∨ 0xe000 ≤ n ∧ n < 0x110000) :
    (Char.ofNat n).toNat = n := by
  have hvalid : n.isValidChar := by
    rcases h with h | h
    · exact Or.inl h
    · exact Or.inr ⟨by omega, h.2⟩
  rw [Char.ofNat, dif_pos hvalid]
  rfl

private theorem le_toNat_replacement : 0x80 ≤ replacement.toNat := by decide

private theorem toNat_ite (b c x y : UInt8) :
    b.toNat = c.toNat ∧ (if b = c then x else y).toNat = x.toNat ∨
      b.toNat ≠ c.toNat ∧ (if b = c then x else y).toNat = y.toNat := by
  by_cases h : b = c
  · exact Or.inl ⟨congrArg UInt8.toNat h, by rw [if_pos h]⟩
  · exact Or.inr ⟨fun hn => h (UInt8.toNat_inj.mp hn), by rw [if_neg h]⟩

namespace Unfinished

/-- A byte that only begins or continues a sound character brings in nothing. -/
theorem harmless_of_sound {u : Unfinished} (h : u.Sound) (b : UInt8) : Harmless b ([], some u) where
  written c hc := absurd hc List.not_mem_nil
  next v hv := by rwa [← Option.some.inj hv]

/-- A byte that finishes a character brings in nothing, unless the character is below 0x80. -/
theorem harmless_of_char {b : UInt8} {c : Char} (h : c.toNat < 0x80 → c.toNat = b.toNat) :
    Harmless b ([c], none) where
  written d hd hlt := by
    obtain rfl := List.mem_singleton.mp hd
    exact h hlt
  next v hv := absurd hv (Option.some_ne_none v).symm

/-- A byte between characters brings in nothing below 0x80 but itself. -/
theorem start_harmless (b : UInt8) : Harmless b (start b) := by
  obtain ⟨-, htwo, hthree, hfour⟩ := toNat_and_lowBits b
  have hb := b.toNat_lt
  unfold start
  split
  · rename_i h
    rw [UInt8.lt_iff_toNat_lt] at h
    exact harmless_of_char fun _ => toNat_ofNat_of_scalar (Or.inl (by omega))
  -- a lead byte of two, three or four: the bounds of the next byte are what makes the number sound
  split
  · rename_i h
    simp only [UInt8.le_iff_toNat_le, UInt8.reduceToNat] at h
    refine harmless_of_sound ?_ b
    constructor <;> simp only [least, beyond, ways, htwo, Nat.reduceSub,
      UInt8.reduceToNat] <;> omega
  split
  · rename_i h
    have hlow := toNat_ite b 0xe0 0xa0 0x80
    have hhigh := toNat_ite b 0xed 0x9f 0xbf
    simp only [UInt8.le_iff_toNat_le, UInt8.reduceToNat] at h hlow hhigh
    refine harmless_of_sound ?_ b
    constructor <;> simp only [least, beyond, ways, hthree, Nat.reduceSub] <;> omega
  split
  · rename_i h
    have hlow := toNat_ite b 0xf0 0x90 0x80
    have hhigh := toNat_ite b 0xf4 0x8f 0xbf
    simp only [UInt8.le_iff_toNat_le, UInt8.reduceToNat] at h hlow hhigh
    refine harmless_of_sound ?_ b
    constructor <;> simp only [least, beyond, ways, hfour, Nat.reduceSub] <;> omega
  · exact harmless_of_char fun hlt => absurd hlt (Nat.not_lt.mpr le_toNat_replacement)

/-- A byte that belongs into a character narrows the numbers that it can become. -/
theorem narrowed {u : Unfinished} {b : UInt8} (hlow : u.low.toNat ≤ b.toNat)
    (hhigh : b.toNat ≤ u.high.toNat) (hdue : 1 < u.due) :
    let next : Unfinished := ⟨u.due - 1, 0x80, 0xbf, u.bits * 64 + (b.toNat - 0x80)⟩
    u.least ≤ next.least ∧ next.beyond ≤ u.beyond := by
  intro next
  have hways : ways (u.due - 1) = 64 * ways (u.due - 1 - 1) := by
    obtain ⟨count, hcount⟩ : ∃ count, u.due - 1 = count + 1 := ⟨u.due - 2, by omega⟩
    rw [hcount, Nat.add_sub_cancel, ways]
  have hleast : next.least = (u.bits * 64 + (b.toNat - 0x80)) * ways (u.due - 1) := by
    simp only [next, least, UInt8.reduceToNat, Nat.sub_self, Nat.add_zero]
    rw [hways, Nat.mul_assoc]
  have hbeyond : next.beyond = (u.bits * 64 + (b.toNat - 0x80) + 1) * ways (u.due - 1) := by
    simp only [next, beyond, UInt8.reduceToNat, Nat.reduceSub]
    rw [hways, ← Nat.mul_assoc, Nat.add_mul _ 1 64, Nat.one_mul, Nat.add_assoc]
  rw [hleast, hbeyond]
  exact ⟨Nat.mul_le_mul_right _ (by omega), Nat.mul_le_mul_right _ (by omega)⟩

/-- A byte inside a sound character brings in nothing below 0x80 but itself. -/
theorem continue_harmless {u : Unfinished} (hu : u.Sound) (b : UInt8) :
    Harmless b (u.continue b) := by
  obtain ⟨hsix, -⟩ := toNat_and_lowBits b
  simp only [Unfinished.continue, hsix]
  split
  · rename_i hb
    have hlow := UInt8.le_iff_toNat_le.mp hb.1
    have hhigh := UInt8.le_iff_toNat_le.mp hb.2
    have hmod : b.toNat % 64 = b.toNat - 0x80 := by
      have := hu.low_ge
      have := hu.high_le
      omega
    rw [hmod]
    split
    · rename_i hdue
      have hone : u.due - 1 = 0 := by omega
      have hleast := hu.least_ge
      have hscalar := hu.is_scalar
      simp only [least, beyond, hone, ways, Nat.mul_one] at hleast hscalar
      refine harmless_of_char fun hlt => ?_
      rw [toNat_ofNat_of_scalar (by omega)] at hlt
      omega
    · rename_i hdue
      obtain ⟨hleast, hbeyond⟩ := narrowed hlow hhigh (Nat.lt_of_not_le hdue)
      have hdue_le := hu.due_le
      have hscalar := hu.is_scalar
      refine harmless_of_sound ?_ b
      exact ⟨Nat.le_sub_one_of_lt (Nat.lt_of_not_le hdue), Nat.le_trans (Nat.sub_le _ _) hdue_le,
        Nat.le_refl 0x80, Nat.le_refl 0xbf, Nat.le_trans hu.least_ge hleast, by omega⟩
  · obtain ⟨hwritten, hnext⟩ := start_harmless b
    refine ⟨fun c hc hlt => ?_, hnext⟩
    rcases List.mem_cons.mp hc with rfl | hc
    · exact absurd hlt (Nat.not_lt.mpr le_toNat_replacement)
    · exact hwritten c hc hlt

end Unfinished

/-- A character below 0x80 that is read is one of the bytes. -/
theorem mem_of_mem_repairFrom {state : Option Unfinished} (h : ∀ u, state = some u → u.Sound)
    {bytes : Bytes} {c : Char} (hc : c ∈ repairFrom state bytes) (hlt : c.toNat < 0x80) :
    ∃ b ∈ bytes, c.toNat = b.toNat := by
  induction bytes generalizing state with
  | nil =>
    cases state with
    | none => exact absurd hc List.not_mem_nil
    | some u =>
      rw [repairFrom, List.mem_singleton] at hc
      rw [hc] at hlt
      exact absurd hlt (Nat.not_lt.mpr le_toNat_replacement)
  | cons b rest ih =>
    have hstep : ∃ effect : List Char × Option Unfinished, Unfinished.Harmless b effect ∧
        repairFrom state (b :: rest) = effect.1 ++ repairFrom effect.2 rest := by
      cases state with
      | none => exact ⟨_, Unfinished.start_harmless b, rfl⟩
      | some u => exact ⟨_, Unfinished.continue_harmless (h u rfl) b, rfl⟩
    obtain ⟨effect, hharmless, heq⟩ := hstep
    rw [heq, List.mem_append] at hc
    rcases hc with hc | hc
    · exact ⟨b, List.mem_cons_self, hharmless.written c hc hlt⟩
    · obtain ⟨b', hmem, hb'⟩ := ih hharmless.next hc
      exact ⟨b', List.mem_cons_of_mem b hmem, hb'⟩

/-- The octets of a text are those of its characters. -/
theorem bytesOf_ofList (cs : List Char) :
    bytesOf (String.ofList cs) = cs.flatMap String.utf8EncodeChar := by
  simp [bytesOf, List.utf8Encode]

/-- A character below 0x80 is one octet. -/
theorem utf8EncodeChar_of_lt {c : Char} (h : c.toNat < 0x80) :
    String.utf8EncodeChar c = [c.toNat.toUInt8] := by
  have hsmall : c.val.toNat ≤ 0x7f := Nat.le_of_lt_succ h
  simp only [String.utf8EncodeChar]
  rw [if_pos hsmall]
  rfl

/-- An octet below 0x80 is a character by itself. -/
theorem toNat_of_mem_utf8EncodeChar {c : Char} {b : UInt8} (h : b ∈ String.utf8EncodeChar c)
    (hlt : b.toNat < 0x80) : c.toNat = b.toNat := by
  simp only [String.utf8EncodeChar] at h
  split at h
  · rename_i hle
    rw [List.mem_singleton.mp h, UInt8.toNat_ofNat', Nat.mod_eq_of_lt (by omega)]
    rfl
  -- every octet of a longer character is at least 0x80
  all_goals
    refine absurd hlt (Nat.not_lt.mpr ?_)
    repeat' split at h
    all_goals
      simp only [List.mem_cons, List.not_mem_nil, or_false] at h
      rcases h with rfl | rfl | rfl | rfl <;> rw [UInt8.toNat_ofNat'] <;> omega

/-- The octets of valid bytes read as text are the bytes. -/
theorem bytesOf_of_strict {bytes : Bytes} {text : String} (h : strict bytes = some text) :
    bytesOf text = bytes := by
  simp only [strict, String.fromUTF8?] at h
  split at h
  · obtain rfl := Option.some.inj h
    simp [bytesOf, String.fromUTF8]
  · cases h

/-- Bytes are left as they are if they are valid, and only then. -/
theorem bytesOf_lossy_iff {bytes : Bytes} :
    bytesOf (lossy bytes) = bytes ↔ (strict bytes).isSome := by
  constructor
  · intro h
    rw [← h, strict_bytesOf]
    rfl
  · intro h
    obtain ⟨text, htext⟩ := Option.isSome_iff_exists.mp h
    have hlossy : lossy bytes = text := by
      rw [lossy, htext]
    rw [hlossy, bytesOf_of_strict htext]

/-- Reading bytes as text brings in no octet below 0x80. -/
theorem mem_of_mem_lossy {bytes : Bytes} {b : UInt8} (h : b ∈ bytesOf (lossy bytes))
    (hlt : b.toNat < 0x80) : b ∈ bytes := by
  rw [lossy] at h
  split at h
  · rename_i text htext
    rwa [bytesOf_of_strict htext] at h
  · rw [bytesOf_ofList] at h
    obtain ⟨c, hc, hb⟩ := List.mem_flatMap.mp h
    have hcb := toNat_of_mem_utf8EncodeChar hb hlt
    have hnone : ∀ u, (none : Option Unfinished) = some u → u.Sound :=
      fun u hu => absurd hu (Option.some_ne_none u).symm
    obtain ⟨b', hmem, hb'⟩ := mem_of_mem_repairFrom hnone hc (by omega)
    rwa [← UInt8.toNat_inj.mp (hb'.symm.trans hcb)]

end EngineFuzz.Text
