import EngineFuzz.Proofs.DeclarationGrammar
import EngineFuzz.Proofs.JsonGrammar
/-!
# Reading the words of JSON texts

A reader takes something from the head of what is left and yields what is behind it.  A
character between quotation marks tells by itself where it ends, and so does a text.  A word
does not: digits may always be followed by more digits.  So a word is cut out first and then
read as a whole.

Each reader comes with the two directions of one statement.  What it reads is a spelling of what
it yields, and every spelling is read.

* `character?_eq_some_iff` — characters;
* `IsBody.body?_append`, `exists_of_body?` — texts up to the closing quotation mark;
* `word?_eq_some_iff` — literals and numbers.
-/

namespace EngineFuzz.Json

open Text (BeginsOutside beginsOutside_cons)

/-! ### Texts -/

/-- The second half of a pair of code units. -/
def lowHalf? (high : Nat) : List Char → Option (Char × List Char)
  | '\\' :: 'u' :: w :: x :: y :: z :: rest =>
    (Toml.hexNumeral? [w, x, y, z]).bind fun low =>
      if 0xdc00 ≤ low ∧ low < 0xe000 then some (paired high low, rest) else none
  | _ => none

/-- What follows a backslash. -/
def escape? : List Char → Option (Char × List Char)
  | 'u' :: w :: x :: y :: z :: rest =>
    (Toml.hexNumeral? [w, x, y, z]).bind fun unit =>
      if unit < 0xd800 ∨ 0xe000 ≤ unit then some (Char.ofNat unit, rest)
      else if unit < 0xdc00 then lowHalf? unit rest
      else none
  | letter :: rest => (letters.lookup letter).map fun c => (c, rest)
  | [] => none

/-- A character between quotation marks. -/
def character? : List Char → Option (Char × List Char)
  | '\\' :: rest => escape? rest
  | c :: rest => if 0x20 ≤ c.toNat ∧ c ≠ '"' then some (c, rest) else none
  | [] => none

section Characters

variable {cs rest spelling : List Char} {c : Char}

theorem mem_letters_of_lookup {letter : Char} (h : letters.lookup letter = some c) :
    (letter, c) ∈ letters := by
  obtain ⟨before, after, hletters, -⟩ := List.lookup_eq_some_iff.mp h
  simp [hletters]

/-- The second half of a pair is read. -/
theorem exists_of_lowHalf? {high : Nat} (h : lowHalf? high cs = some (c, rest)) :
    ∃ w x y z low, Toml.hexNumeral? [w, x, y, z] = some low ∧ (0xdc00 ≤ low ∧ low < 0xe000) ∧
      c = paired high low ∧ cs = ['\\', 'u', w, x, y, z] ++ rest := by
  unfold lowHalf? at h
  split at h
  · next w x y z after =>
    obtain ⟨low, hlow, h⟩ := Option.bind_eq_some_iff.mp h
    split at h
    · next hrange =>
      obtain ⟨rfl, rfl⟩ := Prod.mk.inj (Option.some.inj h)
      exact ⟨w, x, y, z, low, hlow, hrange, rfl, rfl⟩
    · cases h
  · cases h

/-- What is read behind a backslash is a spelling of the character. -/
theorem exists_of_escape? (h : escape? cs = some (c, rest)) :
    ∃ spelling, IsCharacter ('\\' :: spelling) c ∧ cs = spelling ++ rest := by
  unfold escape? at h
  split at h
  · next w x y z after =>
    obtain ⟨unit, hunit, h⟩ := Option.bind_eq_some_iff.mp h
    split at h
    · next hwhole =>
      obtain ⟨rfl, rfl⟩ := Prod.mk.inj (Option.some.inj h)
      exact ⟨['u', w, x, y, z], .unit hunit hwhole, rfl⟩
    · next hhalf =>
      split at h
      · next hhigh =>
        obtain ⟨w', x', y', z', low, hlow, hrange, hc, hafter⟩ := exists_of_lowHalf? h
        rw [hc, hafter]
        refine ⟨['u', w, x, y, z] ++ ['\\', 'u', w', x', y', z'], ?_, rfl⟩
        exact .pair hunit hlow ⟨by omega, hhigh⟩ hrange
      · cases h
  · next letter after _ =>
    obtain ⟨c, hletter, h⟩ := Option.map_eq_some_iff.mp h
    obtain ⟨rfl, rfl⟩ := Prod.mk.inj h
    exact ⟨[letter], .letter (mem_letters_of_lookup hletter), rfl⟩
  · cases h

/-- **A character is read from its spellings**, and from nothing else. -/
theorem character?_eq_some_iff : character? cs = some (c, rest) ↔
    ∃ spelling, IsCharacter spelling c ∧ cs = spelling ++ rest := by
  constructor
  · intro h
    unfold character? at h
    split at h
    · obtain ⟨spelling, hspelling, rfl⟩ := exists_of_escape? h
      exact ⟨'\\' :: spelling, hspelling, rfl⟩
    · next d after hbackslash =>
      split at h
      · next hplain =>
        obtain ⟨rfl, rfl⟩ := Prod.mk.inj (Option.some.inj h)
        exact ⟨[d], .plain hplain.1 hplain.2 (by simpa using hbackslash), rfl⟩
      · cases h
    · cases h
  · intro ⟨spelling, hspelling, hcs⟩
    subst hcs
    cases hspelling with
    | plain hcontrol hquote hbackslash => simp [character?, hcontrol, hquote]
    | @letter letter _ hmem =>
      have hall : ∀ pair ∈ letters, ∀ rest,
          character? ('\\' :: pair.1 :: rest) = some (pair.2, rest) := by
        simp [letters, character?, escape?, List.lookup_cons]
      exact hall (letter, c) hmem rest
    | unit hunit hwhole => simp [character?, escape?, hunit, hwhole]
    | @pair _ _ _ _ _ _ _ _ high low hhigh hlow hhigh' hlow' =>
      have hhalf : ¬(high < 0xd800 ∨ 0xe000 ≤ high) := by
        intro h
        omega
      simp [character?, escape?, lowHalf?, hhigh, hlow, hhigh', hlow', hhalf]

end Characters

/-- Reading a character takes one at least. -/
theorem length_character? {cs rest : List Char} {c : Char} (h : character? cs = some (c, rest)) :
    rest.length < cs.length := by
  obtain ⟨spelling, hspelling, rfl⟩ := character?_eq_some_iff.mp h
  have hpositive : 0 < spelling.length := by
    cases hspelling <;> simp
  rw [List.length_append]
  omega

/-- A text up to its closing quotation mark. -/
def body? : List Char → Option (List Char × List Char)
  | [] => none
  | c :: rest =>
    if c = '"' then some ([], rest)
    else
      match _h : character? (c :: rest) with
      | some (first, after) => (body? after).map fun (content, left) => (first :: content, left)
      | none => none
termination_by cs => cs.length
decreasing_by exact length_character? _h

section Texts

variable {cs body text rest : List Char} {c : Char}

/-- No spelling of a character begins with a quotation mark. -/
theorem IsCharacter.exists_cons {spelling : List Char} (h : IsCharacter spelling c) :
    ∃ d ds, spelling = d :: ds ∧ d ≠ '"' := by
  cases h with
  | plain hcontrol hquote hbackslash => exact ⟨_, _, rfl, hquote⟩
  | letter | unit | pair => exact ⟨_, _, rfl, by decide⟩

/-- A character before the rest of a text. -/
theorem body?_of_character? (hne : c ≠ '"') {first : Char} {after : List Char}
    (h : character? (c :: cs) = some (first, after)) :
    body? (c :: cs) = (body? after).map fun (content, left) => (first :: content, left) := by
  rw [body?, if_neg hne]
  split
  · next first' after' h' =>
    obtain ⟨rfl, rfl⟩ := Prod.mk.inj (Option.some.inj (h.symm.trans h'))
    rfl
  · next h' => exact absurd (h.symm.trans h') (Option.some_ne_none _)

/-- The text that a spelling says is read. -/
theorem IsBody.body?_append (h : IsBody body text) (rest : List Char) :
    body? (body ++ '"' :: rest) = some (text, rest) := by
  induction h with
  | nil => simp [body?]
  | @cons spelling body text c hcharacter hbody ih =>
    obtain ⟨d, ds, rfl, hne⟩ := hcharacter.exists_cons
    have hread : character? (d :: (ds ++ (body ++ '"' :: rest))) = some (c, body ++ '"' :: rest) :=
      character?_eq_some_iff.mpr ⟨d :: ds, hcharacter, rfl⟩
    rw [List.append_assoc, List.cons_append, body?_of_character? hne hread, ih]
    rfl

/-- What is read as a text is a spelling of it. -/
theorem exists_of_body? (h : body? cs = some (text, rest)) :
    ∃ body, IsBody body text ∧ cs = body ++ '"' :: rest := by
  induction cs using body?.induct generalizing text with
  | case1 => simp [body?] at h
  | case2 after =>
    rw [body?, if_pos rfl] at h
    obtain ⟨rfl, rfl⟩ := Prod.mk.inj (Option.some.inj h)
    exact ⟨[], .nil, rfl⟩
  | case3 c cs hne first after hread ih =>
    rw [body?_of_character? hne hread] at h
    obtain ⟨⟨others, left⟩, hothers, hpair⟩ := Option.map_eq_some_iff.mp h
    obtain ⟨rfl, rfl⟩ := Prod.mk.inj hpair
    obtain ⟨body, hbody, hafter⟩ := ih hothers
    obtain ⟨spelling, hspelling, hcs⟩ := character?_eq_some_iff.mp hread
    exact ⟨spelling ++ body, .cons hspelling hbody, by rw [hcs, hafter, List.append_assoc]⟩
  | case4 c cs hne hread =>
    rw [body?, if_neg hne] at h
    split at h
    · next h' => exact absurd (hread.symm.trans h').symm (Option.some_ne_none _)
    · cases h

end Texts

/-! ### Words -/

instance (cs : List Char) : Decidable (IsDigits cs) := inferInstanceAs (Decidable (_ ∧ _))

instance (cs : List Char) : Decidable (IsWhole cs) := inferInstanceAs (Decidable (_ ∧ (_ → _)))

/-- What follows a fraction, if there is one. -/
def afterFraction? : List Char → Option (List Char)
  | '.' :: rest =>
    if rest.takeWhile Char.isDigit = [] then none else some (rest.dropWhile Char.isDigit)
  | cs => some cs

/-- What follows the sign of an exponent, if it has one. -/
def afterSign : List Char → List Char
  | '+' :: rest => rest
  | '-' :: rest => rest
  | cs => cs

/-- Whether characters are an exponent or nothing. -/
def isExponent : List Char → Bool
  | [] => true
  | mark :: rest => (mark = 'e' || mark = 'E') && decide (IsDigits (afterSign rest))

/-- The number that a word is, if it is one. -/
def number? (spelling : List Char) : Option Value :=
  let negative := decide (spelling.head? = some '-')
  let unsigned := if negative then spelling.tail else spelling
  let whole := unsigned.takeWhile Char.isDigit
  let behind := unsigned.dropWhile Char.isDigit
  if IsWhole whole then
    if behind = [] then some (.integer (signed negative whole))
    else
      (afterFraction? behind).bind fun exponent =>
        if isExponent exponent then some (.decimal (String.ofList spelling)) else none
  else none

/-- What a word says. -/
def word? (spelling : List Char) : Option Value :=
  if spelling = "null".toList then some .null
  else if spelling = "true".toList then some (.bool true)
  else if spelling = "false".toList then some (.bool false)
  else number? spelling

section Words

variable {cs ds rest fraction exponent spelling : List Char} {value : Value}

/-- The first of digits is a digit, and so no sign. -/
theorem IsDigits.exists_cons (h : IsDigits ds) :
    ∃ d rest, ds = d :: rest ∧ d.isDigit = true ∧ d ≠ '+' ∧ d ≠ '-' := by
  obtain ⟨hne, hdigits⟩ := h
  obtain ⟨d, rest, rfl⟩ := List.exists_cons_of_ne_nil hne
  have hd : d.isDigit = true := hdigits d (by simp)
  refine ⟨d, rest, rfl, hd, ?_, ?_⟩
  · rintro rfl
    cases hd
  · rintro rfl
    cases hd

/-- Digits are taken as far as they go. -/
theorem IsDigits.span_append (h : IsDigits ds) (hrest : BeginsOutside Char.isDigit rest) :
    (ds ++ rest).takeWhile Char.isDigit = ds ∧ (ds ++ rest).dropWhile Char.isDigit = rest :=
  Text.span_append h.2 hrest

/-- The digits at the head are digits, if there are any. -/
theorem isDigits_takeWhile (h : cs.takeWhile Char.isDigit ≠ []) :
    IsDigits (cs.takeWhile Char.isDigit) :=
  ⟨h, fun _ hc => List.mem_takeWhile_imp hc⟩

/-- An exponent does not begin with a digit. -/
theorem IsExponent.beginsOutside (h : IsExponent exponent) :
    BeginsOutside Char.isDigit exponent := by
  cases h with
  | none => exact fun _ hc => nomatch hc
  | digits hmark => rcases hmark with rfl | rfl <;> exact beginsOutside_cons (by decide) _

/-- Neither does a fraction with an exponent behind it. -/
theorem IsFraction.beginsOutside (h : IsFraction fraction) (hexponent : IsExponent exponent) :
    BeginsOutside Char.isDigit (fraction ++ exponent) := by
  cases h with
  | none => exact hexponent.beginsOutside
  | digits => exact beginsOutside_cons (by decide) _

/-- A fraction is passed over. -/
theorem IsFraction.afterFraction?_append (h : IsFraction fraction)
    (hexponent : IsExponent exponent) : afterFraction? (fraction ++ exponent) = some exponent := by
  cases h with
  | none =>
    cases hexponent with
    | none => rfl
    | digits hmark => rcases hmark with rfl | rfl <;> rfl
  | digits hdigits =>
    obtain ⟨htake, hdrop⟩ := hdigits.span_append hexponent.beginsOutside
    rw [List.cons_append, afterFraction?, htake, hdrop, if_neg hdigits.1]

/-- What is passed over is a fraction. -/
theorem exists_of_afterFraction? (h : afterFraction? cs = some exponent) :
    ∃ fraction, IsFraction fraction ∧ cs = fraction ++ exponent := by
  unfold afterFraction? at h
  split at h
  · next rest =>
    split at h
    · cases h
    · next hne =>
      obtain rfl := Option.some.inj h
      refine ⟨'.' :: rest.takeWhile Char.isDigit, .digits (isDigits_takeWhile hne), ?_⟩
      rw [List.cons_append, List.takeWhile_append_dropWhile]
  · obtain rfl := Option.some.inj h
    exact ⟨[], .none, rfl⟩

/-- The sign of an exponent is passed over. -/
theorem afterSign_append {sign : List Char} (hsign : sign ∈ [[], ['+'], ['-']]) (h : IsDigits ds) :
    afterSign (sign ++ ds) = ds := by
  simp only [List.mem_cons, List.not_mem_nil, or_false] at hsign
  rcases hsign with rfl | rfl | rfl
  · obtain ⟨d, rest, rfl, -, hplus, hminus⟩ := h.exists_cons
    rw [List.nil_append]
    unfold afterSign
    split
    · next heq => exact absurd (List.cons.inj heq).1 hplus
    · next heq => exact absurd (List.cons.inj heq).1 hminus
    · rfl
  · rfl
  · rfl

/-- What is passed over is a sign, or nothing. -/
theorem exists_afterSign (cs : List Char) :
    ∃ sign ∈ [[], ['+'], ['-']], cs = sign ++ afterSign cs := by
  unfold afterSign
  split
  · exact ⟨['+'], by simp, rfl⟩
  · exact ⟨['-'], by simp, rfl⟩
  · exact ⟨[], by simp, rfl⟩

/-- Exponents are told from all else. -/
theorem isExponent_iff : isExponent cs = true ↔ IsExponent cs := by
  constructor
  · intro h
    cases cs with
    | nil => exact .none
    | cons mark rest =>
      simp only [isExponent, Bool.and_eq_true, Bool.or_eq_true, decide_eq_true_eq] at h
      obtain ⟨sign, hsign, hrest⟩ := exists_afterSign rest
      rw [hrest]
      exact .digits h.1 hsign h.2
  · intro h
    cases h with
    | none => rfl
    | digits hmark hsign hdigits =>
      simp only [isExponent, afterSign_append hsign hdigits, Bool.and_eq_true, Bool.or_eq_true,
        decide_eq_true_eq]
      exact ⟨hmark, hdigits⟩

/-- A sign is told from the digits behind it. -/
theorem unsigned_append (negative : Bool) (h : IsDigits ds) (rest : List Char) :
    decide ((minus negative ++ (ds ++ rest)).head? = some '-') = negative ∧
      (if negative then (minus negative ++ (ds ++ rest)).tail else minus negative ++ (ds ++ rest))
        = ds ++ rest := by
  cases negative with
  | true => exact ⟨rfl, rfl⟩
  | false =>
    obtain ⟨d, rest, rfl, -, -, hminus⟩ := h.exists_cons
    exact ⟨by simpa [minus] using hminus, rfl⟩

/-- What is left without its sign. -/
theorem exists_minus_append (cs : List Char) :
    let negative := decide (cs.head? = some '-')
    cs = minus negative ++ (if negative then cs.tail else cs) := by
  intro negative
  by_cases h : cs.head? = some '-'
  · obtain ⟨ds, rfl⟩ : ∃ ds, cs = '-' :: ds := List.head?_eq_some_iff.mp h
    rfl
  · have hnegative : negative = false := decide_eq_false h
    rw [hnegative]
    rfl

/-- What is read as a number is a spelling of it. -/
theorem isWord_of_number? (h : number? spelling = some value) : IsWord spelling value := by
  have hsign := exists_minus_append spelling
  revert hsign h
  simp only [number?]
  generalize decide (spelling.head? = some '-') = negative
  generalize hunsigned : (if negative then spelling.tail else spelling) = unsigned
  intro h hspelling
  have hsplit : unsigned = unsigned.takeWhile Char.isDigit ++ unsigned.dropWhile Char.isDigit :=
    List.takeWhile_append_dropWhile.symm
  split at h
  · next hwhole =>
    split at h
    · next hbehind =>
      obtain rfl := Option.some.inj h
      rw [hbehind, List.append_nil] at hsplit
      rw [hspelling]
      nth_rewrite 1 [hsplit]
      exact .integer negative hwhole
    · next hbehind =>
      obtain ⟨exponent, hafter, h⟩ := Option.bind_eq_some_iff.mp h
      split at h
      · next hexponent =>
        obtain rfl := Option.some.inj h
        obtain ⟨fraction, hfraction, heq⟩ := exists_of_afterFraction? hafter
        rw [heq] at hsplit hbehind
        rw [hspelling, hsplit]
        exact .decimal negative hwhole hfraction (isExponent_iff.mp hexponent) hbehind
      · cases h
  · cases h

/-- Integers and other numbers are read. -/
theorem number?_append (negative : Bool) (h : IsWhole ds) (hfraction : IsFraction fraction)
    (hexponent : IsExponent exponent) :
    number? (minus negative ++ (ds ++ (fraction ++ exponent))) =
      if fraction ++ exponent = [] then some (.integer (signed negative ds))
      else some (.decimal (String.ofList (minus negative ++ (ds ++ (fraction ++ exponent))))) := by
  obtain ⟨hnegative, hunsigned⟩ := unsigned_append negative h.1 (fraction ++ exponent)
  obtain ⟨htake, hdrop⟩ := h.1.span_append (hfraction.beginsOutside hexponent)
  simp only [number?, hnegative, hunsigned, htake, hdrop, if_pos h]
  split
  · rfl
  · rw [hfraction.afterFraction?_append hexponent, Option.bind_some,
      if_pos (isExponent_iff.mpr hexponent)]

/-- A number begins with a digit or a minus, and so is no literal. -/
theorem word?_append (negative : Bool) (h : IsWhole ds) (rest : List Char) :
    word? (minus negative ++ (ds ++ rest)) = number? (minus negative ++ (ds ++ rest)) := by
  obtain ⟨c, cs, hcons, hc⟩ : ∃ c cs, minus negative ++ (ds ++ rest) = c :: cs ∧
      (c = '-' ∨ c.isDigit = true) := by
    cases negative with
    | true => exact ⟨'-', _, rfl, .inl rfl⟩
    | false =>
      obtain ⟨d, behind, rfl, hd, -⟩ := h.1.exists_cons
      exact ⟨d, _, rfl, .inr hd⟩
  have hhead : ∀ literal ∈ ["null".toList, "true".toList, "false".toList], c :: cs ≠ literal := by
    intro literal hliteral heq
    have hletter : ∀ literal ∈ ["null".toList, "true".toList, "false".toList],
        ∀ d ∈ literal.head?, d ≠ '-' ∧ d.isDigit = false := by simp
    obtain ⟨hminus, hdigit⟩ := hletter literal hliteral c (by rw [← heq]; rfl)
    rcases hc with rfl | hc
    · exact hminus rfl
    · exact absurd hc (by simp [hdigit])
  rw [hcons, word?, if_neg (hhead _ (by simp)), if_neg (hhead _ (by simp)),
    if_neg (hhead _ (by simp))]

/-- **A word is read as a whole**: what it says is settled by the grammar. -/
theorem word?_eq_some_iff : word? spelling = some value ↔ IsWord spelling value := by
  constructor
  · intro h
    unfold word? at h
    split at h
    · next hnull =>
      obtain rfl := Option.some.inj h
      exact hnull ▸ .null
    · split at h
      · next htrue =>
        obtain rfl := Option.some.inj h
        exact htrue ▸ .truth
      · split at h
        · next hfalse =>
          obtain rfl := Option.some.inj h
          exact hfalse ▸ .falsehood
        · exact isWord_of_number? h
  · intro h
    cases h with
    | null => rfl
    | truth => rfl
    | falsehood => rfl
    | @integer ds negative h =>
      have hread := number?_append negative h .none .none
      have hword := word?_append negative h []
      rw [List.append_nil] at hword
      rw [List.append_nil, List.append_nil, if_pos rfl] at hread
      exact hword.trans hread
    | decimal negative h hfraction hexponent hne =>
      rw [word?_append negative h, number?_append negative h hfraction hexponent, if_neg hne]

end Words

end EngineFuzz.Json
