import EngineFuzz.Uuid
/-!
# The characters of an identifier

Both written forms of an identifier consist of lower-case hexadecimal digits, and the hyphenated
form has hyphens besides.  So neither form can hold a line end, a quote or a blank, whatever the
identifier.  The digits of an octet are read back as that octet, so each form is the form of one
identifier alone.

* `mem_hyphenatedChars` — the characters of the hyphenated form;
* `filter_hyphenatedChars` — without its hyphens it is the simple form;
* `octets?_digits` — what is written in digits is read back;
* `simpleChars_injective`, `hyphenatedChars_injective` — each form determines the identifier.
-/

namespace EngineFuzz.Uuid

/-- The digits that identifiers are written with. -/
def hexDigits : List Char := "0123456789abcdef".toList

private theorem hexDigit_ofNat_mem : ∀ n : Fin 16, hexDigit (UInt8.ofNat n) ∈ hexDigits := by decide

/-- A number below sixteen has a digit. -/
theorem hexDigit_mem_hexDigits {n : UInt8} (h : n < 16) : hexDigit n ∈ hexDigits := by
  have hlt : n.toNat < 16 := UInt8.lt_iff_toNat_lt.mp h
  have hofNat : UInt8.ofNat n.toNat = n := UInt8.ofNat_toNat
  have hmem := hexDigit_ofNat_mem ⟨n.toNat, hlt⟩
  rwa [hofNat] at hmem

/-- The high half of an octet is below sixteen. -/
theorem shiftRight_four_lt (b : UInt8) : b >>> 4 < 16 := by
  rw [UInt8.lt_iff_toNat_lt, UInt8.toNat_shiftRight]
  have hb := b.toNat_lt
  have hfour : (4 : UInt8).toNat % 8 = 4 := rfl
  have hsixteen : (16 : UInt8).toNat = 16 := rfl
  rw [hfour, hsixteen, Nat.shiftRight_eq_div_pow]
  omega

/-- The low half of an octet is below sixteen. -/
theorem and_fifteen_lt (b : UInt8) : b &&& 15 < 16 := by
  rw [UInt8.lt_iff_toNat_lt, UInt8.toNat_and]
  exact Nat.lt_of_le_of_lt Nat.and_le_right (by decide)

/-- An octet is written with digits. -/
theorem mem_octetText {b : UInt8} {c : Char} (h : c ∈ octetText b) : c ∈ hexDigits := by
  simp only [octetText, List.mem_cons, List.not_mem_nil, or_false] at h
  rcases h with rfl | rfl
  · exact hexDigit_mem_hexDigits (shiftRight_four_lt b)
  · exact hexDigit_mem_hexDigits (and_fifteen_lt b)

variable {u : Uuid} {c : Char}

/-- The simple form is written with digits. -/
theorem mem_simpleChars (h : c ∈ u.simpleChars) : c ∈ hexDigits := by
  obtain ⟨b, -, hc⟩ := List.mem_flatMap.mp h
  exact mem_octetText hc

/-- The hyphenated form is written with digits and hyphens. -/
theorem mem_hyphenatedChars (h : c ∈ u.hyphenatedChars) : c = '-' ∨ c ∈ hexDigits := by
  have hgroup : ∀ n m, c ∈ (u.simpleChars.drop n).take m → c = '-' ∨ c ∈ hexDigits :=
    fun n m hc => Or.inr (mem_simpleChars (List.mem_of_mem_drop (List.mem_of_mem_take hc)))
  simp only [hyphenatedChars, List.mem_append, List.mem_cons] at h
  rcases h with (((h | rfl | h) | rfl | h) | rfl | h) | rfl | h
  · exact Or.inr (mem_simpleChars (List.mem_of_mem_take h))
  · exact Or.inl rfl
  · exact hgroup 8 4 h
  · exact Or.inl rfl
  · exact hgroup 12 4 h
  · exact Or.inl rfl
  · exact hgroup 16 4 h
  · exact Or.inl rfl
  · exact Or.inr (mem_simpleChars (List.mem_of_mem_drop h))

/-- A hyphen is no digit. -/
theorem ne_hyphen_of_mem_hexDigits {c : Char} (h : c ∈ hexDigits) : c ≠ '-' := by
  rintro rfl
  exact absurd h (by decide)

private theorem take_drop_append_drop (cs : List Char) (n m : Nat) :
    (cs.drop n).take m ++ cs.drop (n + m) = cs.drop n := by
  rw [← List.drop_drop, List.take_append_drop]

/-- Groups of 8, 4, 4, 4 characters and the rest, one after the other, are all there is. -/
theorem append_groups (cs : List Char) :
    cs.take 8 ++
      ((cs.drop 8).take 4 ++ ((cs.drop 12).take 4 ++ ((cs.drop 16).take 4 ++ cs.drop 20)))
      = cs := by
  -- the groups are joined from the last one on
  rw [take_drop_append_drop _ 16 4, take_drop_append_drop _ 12 4, take_drop_append_drop _ 8 4,
    List.take_append_drop]

/-- The simple form is the hyphenated form without its hyphens. -/
theorem filter_hyphenatedChars (u : Uuid) :
    u.hyphenatedChars.filter (· ≠ '-') = u.simpleChars := by
  have hall : ∀ cs : List Char, (∀ c ∈ cs, c ∈ u.simpleChars) → cs.filter (· ≠ '-') = cs := by
    intro cs hcs
    refine List.filter_eq_self.mpr fun c hc => ?_
    exact decide_eq_true (ne_hyphen_of_mem_hexDigits (mem_simpleChars (hcs c hc)))
  have hgroup : ∀ n m, ((u.simpleChars.drop n).take m).filter (· ≠ '-')
      = (u.simpleChars.drop n).take m :=
    fun n m => hall _ fun c hc => List.mem_of_mem_drop (List.mem_of_mem_take hc)
  have hfirst := hall (u.simpleChars.take 8) fun c hc => List.mem_of_mem_take hc
  have hlast := hall (u.simpleChars.drop 20) fun c hc => List.mem_of_mem_drop hc
  have hhyphen : ∀ cs : List Char, ('-' :: cs).filter (· ≠ '-') = cs.filter (· ≠ '-') :=
    fun cs => by simp
  simp only [hyphenatedChars, List.filter_append, hhyphen, hgroup, hfirst, hlast, List.append_assoc]
  exact append_groups u.simpleChars

private theorem digitValue?_hexDigit_ofNat :
    ∀ n : Fin 16, digitValue? (hexDigit (UInt8.ofNat n)) = some (UInt8.ofNat n) := by decide

/-- The digit of a number is read back as that number. -/
theorem digitValue?_hexDigit {n : UInt8} (h : n < 16) : digitValue? (hexDigit n) = some n := by
  have hlt : n.toNat < 16 := UInt8.lt_iff_toNat_lt.mp h
  have hofNat : UInt8.ofNat n.toNat = n := UInt8.ofNat_toNat
  have hvalue := digitValue?_hexDigit_ofNat ⟨n.toNat, hlt⟩
  rwa [hofNat] at hvalue

private theorem halves_ofNat : ∀ n : Fin 256,
    UInt8.ofNat n >>> 4 <<< 4 ||| UInt8.ofNat n &&& 15 = UInt8.ofNat n := by decide +kernel

/-- An octet is made of its two halves. -/
theorem shiftRight_shiftLeft_or_and (b : UInt8) : b >>> 4 <<< 4 ||| b &&& 15 = b := by
  have hofNat : UInt8.ofNat b.toNat = b := UInt8.ofNat_toNat
  have hhalves := halves_ofNat ⟨b.toNat, b.toNat_lt⟩
  rwa [hofNat] at hhalves

/-- **Octets that are written in digits are read back.** -/
theorem octets?_digits (octets : List UInt8) : octets? (digits octets) = some octets := by
  induction octets with
  | nil => rfl
  | cons b octets ih =>
    have hdigits : digits (b :: octets) =
        hexDigit (b >>> 4) :: hexDigit (b &&& 15) :: digits octets := rfl
    have hhigh := digitValue?_hexDigit (shiftRight_four_lt b)
    have hlow := digitValue?_hexDigit (and_fifteen_lt b)
    have hjoined := shiftRight_shiftLeft_or_and b
    rw [hdigits]
    simp [octets?, hhigh, hlow, ih, hjoined]

/-- The simple form determines the identifier. -/
theorem simpleChars_injective : Function.Injective simpleChars := by
  rintro ⟨octets⟩ ⟨others⟩ h
  have hread : octets? (digits octets.toList) = octets? (digits others.toList) := congrArg octets? h
  rw [octets?_digits, octets?_digits] at hread
  rw [Vector.toList_inj.mp (Option.some.inj hread)]

/-- The hyphenated form determines the identifier. -/
theorem hyphenatedChars_injective : Function.Injective hyphenatedChars := by
  intro u v h
  apply simpleChars_injective
  rw [← filter_hyphenatedChars u, ← filter_hyphenatedChars v, h]

/-- The hyphenated text determines the identifier. -/
theorem hyphenated_injective : Function.Injective hyphenated :=
  fun _ _ h => hyphenatedChars_injective (String.ofList_inj.mp h)

/-- The hyphenated form has four characters more than the simple one. -/
theorem length_hyphenatedChars (u : Uuid) : u.hyphenatedChars.length = 36 := by
  simp [hyphenatedChars, length_simpleChars]

end EngineFuzz.Uuid
