import EngineFuzz.Proofs.ConfigFields
import EngineFuzz.Proofs.DocumentEntry
import Mathlib.Data.List.Basic
import Mathlib.Tactic.IntervalCases
/-!
# A line that sets the seed

A configuration that sets no seed can be given a line in front of it that does.  What is read
behind that line is what was read without it, so the configuration is the same but for the seed.

The number of the line is read as a date first, then as a floating-point number and then as an
integer.  Digits and a line end are never a date or a time, because the digits of those are
followed by something else, and no floating-point number, because there is neither a point nor
an exponent.  An integer has 64 bits and a sign, so the line is no statement if its number takes
all 64 bits.

* `Reader.Fails` — readers that fail;
* `IsNumeral` — digits of a number; `value_append` — how such a number is read;
* `exists_keyValue_eq_ok`, `fails_keyValue` — the line by itself;
* `Config.exists_read_withSeedLine` — the document that begins with the line;
* `Config.parse_withSeedLine`, `Config.exists_parse_withSeedLine_eq_error` — the configuration.
-/

namespace EngineFuzz

namespace Toml

open Reader

namespace Reader

section Failing

variable {α β : Type} {cursor left : Cursor}

/-- A reader that fails. -/
def Fails (reader : Reader α) (cursor : Cursor) : Prop := ∃ place, reader cursor = .error place

theorem Fails.bind {first : Reader α} (h : Fails first cursor) (next : α → Reader β) :
    Fails (first >>= next) cursor := by
  obtain ⟨place, herror⟩ := h
  exact ⟨place, bind_of_error herror⟩

/-- Readers that do the same from a cursor on. -/
theorem bind_congr_at {first first' : Reader α} (h : first cursor = first' cursor)
    (next : α → Reader β) :
    (first >>= next) cursor = (first' >>= next) cursor := by
  change (first cursor >>= fun (a, left) => next a left) = _
  rw [h]
  rfl

theorem Fails.of_ok {first : Reader α} {next : α → Reader β} {a : α}
    (hfirst : first cursor = .ok (a, left))
    (h : Fails (next a) left) : Fails (first >>= next) cursor := by
  obtain ⟨place, herror⟩ := h
  exact ⟨place, (bind_of_ok hfirst).trans herror⟩

theorem either_of_fails {first : Reader α} (h : Fails first cursor) (second : Reader α) :
    either first second cursor = second cursor := by
  obtain ⟨place, herror⟩ := h
  simp only [either, herror]

theorem Fails.either {first second : Reader α} (h : Fails first cursor) (h' : Fails second cursor) :
    Fails (Reader.either first second) cursor := by
  obtain ⟨place, herror⟩ := h'
  exact ⟨place, (either_of_fails h second).trans herror⟩

theorem offset_eq (cursor : Cursor) : Reader.offset cursor = .ok (cursor.offset, cursor) := rfl

theorem Fails.spanned {reader : Reader α} (h : Fails reader cursor) :
    Fails (Reader.spanned reader) cursor :=
  .of_ok (offset_eq cursor) (h.bind _)

/-- What is left can be looked at. -/
theorem rest_eq (cs : List Char) (total : Nat) :
    Reader.rest ⟨total, cs⟩ = .ok (cs, ⟨total, cs⟩) := rfl

/-- A value is read with its place. -/
theorem exists_spanned {reader : Reader α} {a : α} (h : reader cursor = .ok (a, left)) :
    ∃ span, Reader.spanned reader cursor = .ok ((span, a), left) := by
  refine ⟨⟨cursor.offset, left.offset⟩, ?_⟩
  refine (bind_of_ok (offset_eq cursor)).trans ((bind_of_ok h).trans ?_)
  rfl

variable {c d : Char} {cs more : List Char} {total : Nat}

/-- Characters are skipped if they come next. -/
theorem skip?_eq (expected cs : List Char) (total : Nat) : skip? expected ⟨total, cs⟩ =
    .ok ((expected.isPrefixOf? cs).isSome, ⟨total, (expected.isPrefixOf? cs).getD cs⟩) := by
  refine (bind_of_ok (rest_eq _ _)).trans ?_
  cases expected.isPrefixOf? cs <;> rfl

/-- Characters that do not come next are not skipped. -/
theorem skip?_of_ne (h : d ≠ c) (more : List Char) :
    skip? (c :: more) ⟨total, d :: cs⟩ = .ok (false, ⟨total, d :: cs⟩) := by
  have hprefix : (c :: more).isPrefixOf? (d :: cs) = none := by
    simp [List.isPrefixOf?, Ne.symm h]
  rw [skip?_eq, hprefix]
  rfl

end Failing

end Reader

section Numerals

variable {ds cs : List Char} {total : Nat}

/-- Decimal digits of a number, without a zero in front of others. -/
structure IsNumeral (ds : List Char) (n : Nat) : Prop where
  ne_nil : ds ≠ []
  digit : ∀ d ∈ ds, isDecimal d = true
  zero : ds = ['0'] ∨ ds.head? ≠ some '0'
  numeral : numeral 10 ds = n

theorem isDecimal_of_isDigit {d : Char} (h : d.isDigit = true) : isDecimal d = true := by
  simpa [isDecimal, Char.isDigit, Char.le_def] using h

/-- Decimal digits stand for the same number in a document as elsewhere. -/
theorem numeral_eq_ofDigitChars (h : ∀ d ∈ ds, isDecimal d = true) :
    numeral 10 ds = Nat.ofDigitChars 10 ds 0 := by
  refine List.foldl_ext _ _ 0 fun n d hd => ?_
  have hdecimal := h d hd
  simp only [isDecimal, Bool.and_eq_true, decide_eq_true_eq] at hdecimal
  rw [if_pos hdecimal.2]
  rfl

/-- No zero stands in front of the other digits of a number. -/
theorem head?_toDigits (n : Nat) (h : 0 < n) : (Nat.toDigits 10 n).head? ≠ some '0' := by
  induction n using Nat.strong_induction_on with
  | _ n ih =>
    by_cases hlt : n < 10
    · rw [Nat.toDigits_of_lt_base hlt]
      interval_cases n <;> decide
    · have hge : 10 ≤ n := Nat.le_of_not_lt hlt
      rw [Nat.toDigits_of_base_le (by decide) hge,
        List.head?_append_of_ne_nil _ Nat.toDigits_ne_nil]
      exact ih (n / 10) (Nat.div_lt_self h (by decide)) (Nat.div_pos hge (by decide))

/-- A number in decimal is a numeral. -/
theorem isNumeral_toDigits (n : Nat) : IsNumeral (Nat.toDigits 10 n) n := by
  have hdigit : ∀ d ∈ Nat.toDigits 10 n, isDecimal d = true := fun d hd =>
    isDecimal_of_isDigit (Nat.isDigit_of_mem_toDigits (by decide) (by decide) hd)
  refine ⟨Nat.toDigits_ne_nil, hdigit, ?_, ?_⟩
  · rcases Nat.eq_zero_or_pos n with rfl | hn
    · exact Or.inl rfl
    · exact Or.inr (head?_toDigits n hn)
  · rw [numeral_eq_ofDigitChars hdigit, Nat.ofDigitChars_ten_toDigits]

/-- What stands before a line end, or the line end. -/
theorem exists_cons_of_digits (h : ∀ d ∈ ds, isDecimal d = true) (cs : List Char) :
    ∃ d rest, ds ++ '\n' :: cs = d :: rest ∧
      ∀ c, isDecimal c = false → '\n' ≠ c → d ≠ c := by
  cases ds with
  | nil => exact ⟨'\n', cs, rfl, fun c _ hline => hline⟩
  | cons d ds =>
    refine ⟨d, ds ++ '\n' :: cs, rfl, ?_⟩
    rintro c hc - rfl
    rw [h d List.mem_cons_self] at hc
    cases hc

/-- A numeral that does not begin with a zero. -/
theorem IsNumeral.exists_cons {n : Nat} (h : IsNumeral ds n) (hhead : ds.head? ≠ some '0')
    (cs : List Char) : ∃ d rest, ds ++ '\n' :: cs = d :: rest ∧ d ≠ '0' := by
  cases ds with
  | nil => exact absurd rfl h.ne_nil
  | cons d ds => exact ⟨d, ds ++ '\n' :: cs, rfl, fun heq => hhead (congrArg some heq)⟩

/-- Nothing else is skipped before digits and a line end. -/
theorem skip?_digits (h : ∀ d ∈ ds, isDecimal d = true) {c : Char} (hc : isDecimal c = false)
    (hline : '\n' ≠ c) (more cs : List Char) (total : Nat) :
    skip? (c :: more) ⟨total, ds ++ '\n' :: cs⟩ = .ok (false, ⟨total, ds ++ '\n' :: cs⟩) := by
  obtain ⟨d, rest, hrest, hne⟩ := exists_cons_of_digits h cs
  rw [hrest]
  exact skip?_of_ne (hne c hc hline) more

/-- Digits before a line end are read up to there. -/
theorem moreDigits_append (h : ∀ d ∈ ds, isDecimal d = true) (cs : List Char) :
    moreDigits isDecimal (ds ++ '\n' :: cs) = (ds, '\n' :: cs) := by
  induction ds with
  | nil => cases cs <;> rfl
  | cons d ds ih =>
    obtain ⟨hd, hds⟩ := List.forall_mem_cons.mp h
    have hmore := ih hds
    obtain ⟨next, rest, hrest, -⟩ := exists_cons_of_digits hds cs
    rw [hrest] at hmore
    rw [List.cons_append, hrest, moreDigits, if_pos hd, hmore]

theorem digits_append (hne : ds ≠ []) (h : ∀ d ∈ ds, isDecimal d = true) (cs : List Char)
    (total : Nat) : digits isDecimal ⟨total, ds ++ '\n' :: cs⟩ = .ok (ds, ⟨total, '\n' :: cs⟩) := by
  have hmore := moreDigits_append h cs
  cases ds with
  | nil => exact absurd rfl hne
  | cons d ds =>
    refine (bind_of_ok (rest_eq _ _)).trans ?_
    simp only [List.cons_append] at hmore ⊢
    simp only [if_pos (h d List.mem_cons_self), hmore]
    rfl

/-- A numeral is read as it is written. -/
theorem wholeDigits_append {n : Nat} (h : IsNumeral ds n) (cs : List Char) (total : Nat) :
    wholeDigits ⟨total, ds ++ '\n' :: cs⟩ = .ok (ds, ⟨total, '\n' :: cs⟩) := by
  rcases h.zero with rfl | hhead
  · rfl
  · obtain ⟨d, rest, hrest, hd⟩ := h.exists_cons hhead cs
    have hskip : skip? ['0'] ⟨total, ds ++ '\n' :: cs⟩ =
        .ok (false, ⟨total, ds ++ '\n' :: cs⟩) := by
      rw [hrest]
      exact skip?_of_ne hd []
    exact (bind_of_ok hskip).trans (digits_append h.ne_nil h.digit cs total)

/-- As many digits as are asked for are read, if there are that many. -/
theorem fixedDigits_cases (h : ∀ d ∈ ds, isDecimal d = true) (count low high : Nat) (cs : List Char)
    (total : Nat) :
    Fails (fixedDigits count low high) ⟨total, ds ++ '\n' :: cs⟩ ∨
      ∃ n, fixedDigits count low high ⟨total, ds ++ '\n' :: cs⟩ =
        .ok (n, ⟨total, ds.drop count ++ '\n' :: cs⟩) := by
  by_cases hcount : count ≤ ds.length
  · have htaken : (ds ++ '\n' :: cs).take count = ds.take count :=
      List.take_append_of_le_length hcount
    have hleft : (ds ++ '\n' :: cs).drop count = ds.drop count ++ '\n' :: cs :=
      List.drop_append_of_le_length hcount
    have hall : (ds.take count).all isDecimal = true :=
      List.all_eq_true.mpr fun d hd => h d (List.mem_of_mem_take hd)
    have hread : fixedDigits count low high ⟨total, ds ++ '\n' :: cs⟩ =
        (if low ≤ numeral 10 (ds.take count) && numeral 10 (ds.take count) ≤ high then
          pure (numeral 10 (ds.take count)) else Reader.fail)
          ⟨total, ds.drop count ++ '\n' :: cs⟩ := by
      refine bind_of_ok ((bind_of_ok (rest_eq _ _)).trans ?_)
      simp only [htaken, hleft, hall, List.length_take, Nat.min_eq_left hcount, decide_true,
        Bool.and_self, if_true]
      rfl
    by_cases hrange : (low ≤ numeral 10 (ds.take count) && numeral 10 (ds.take count) ≤ high) = true
    · rw [if_pos hrange] at hread
      exact Or.inr ⟨_, hread⟩
    · rw [if_neg hrange] at hread
      exact Or.inl ⟨_, hread⟩
  · have hline : '\n' ∈ (ds ++ '\n' :: cs).take count := by
      obtain ⟨more, hmore⟩ := Nat.exists_eq_add_of_lt (Nat.lt_of_not_le hcount)
      rw [hmore, Nat.add_assoc, List.take_length_add_append, List.take_succ_cons]
      exact List.mem_append_right _ List.mem_cons_self
    have hall : ¬((ds ++ '\n' :: cs).take count).all isDecimal = true := fun hall =>
      Bool.false_ne_true (List.all_eq_true.mp hall _ hline)
    refine Or.inl (Fails.bind (.of_ok (rest_eq _ _) ?_) _)
    simp only [Bool.eq_false_iff.mpr hall, Bool.and_false, Bool.false_eq_true, if_false]
    exact ⟨_, rfl⟩

/-- **A number of fixed length** is followed by a digit or a line end. -/
theorem fails_fixedDigits {α : Type} (h : ∀ d ∈ ds, isDecimal d = true) {c : Char}
    (hc : isDecimal c = false) (hline : '\n' ≠ c) (count low high : Nat)
    (next : Nat → Unit → Reader α) : Fails (do
      let n ← fixedDigits count low high
      let u ← skip [c]
      next n u) ⟨total, ds ++ '\n' :: cs⟩ := by
  rcases fixedDigits_cases h count low high cs total with hfails | ⟨n, hread⟩
  · exact hfails.bind _
  · have hdrop : ∀ d ∈ ds.drop count, isDecimal d = true :=
      fun d hd => h d (List.mem_of_mem_drop hd)
    have hskip := skip?_digits hdrop hc hline [] cs total
    exact .of_ok hread (Fails.bind (.of_ok hskip ⟨_, rfl⟩) _)

/-- A number is no date and no time. -/
theorem fails_datetime (h : ∀ d ∈ ds, isDecimal d = true) :
    Fails datetime ⟨total, ds ++ '\n' :: cs⟩ := by
  have hdate : Fails date ⟨total, ds ++ '\n' :: cs⟩ :=
    fails_fixedDigits h (by decide) (by decide) _ _ _ _
  have htime : Fails time ⟨total, ds ++ '\n' :: cs⟩ :=
    fails_fixedDigits h (by decide) (by decide) _ _ _ _
  exact .of_ok (rest_eq _ _) (((hdate.bind _).either htime).bind _)

/-- Digits have no sign. -/
theorem sign_append (h : ∀ d ∈ ds, isDecimal d = true) (cs : List Char) (total : Nat) :
    sign ⟨total, ds ++ '\n' :: cs⟩ = .ok (false, ⟨total, ds ++ '\n' :: cs⟩) :=
  (bind_of_ok (skip?_digits h (by decide) (by decide) [] cs total)).trans
    (bind_of_ok (skip?_digits h (by decide) (by decide) [] cs total))

/-- A number without a point is no floating-point number. -/
theorem fails_float {n : Nat} (h : IsNumeral ds n) : Fails float ⟨total, ds ++ '\n' :: cs⟩ := by
  have hfraction : ∀ whole : List Char, Fails (do
      let fraction ← if ← Reader.skip? ['.'] then digits isDecimal else pure []
      let cs ← Reader.rest
      let power ←
        if cs.head? = some 'e' || cs.head? = some 'E' then exponent
        else if fraction.isEmpty then Reader.fail
        else pure 0
      let number := Binary64.ofDecimal false (numeral 10 (whole ++ fraction))
          (power - fraction.length)
      if number = .infinite false then Reader.fail
      return number : Reader Binary64) ⟨total, '\n' :: cs⟩ := fun whole => ⟨_, rfl⟩
  refine .of_ok (sign_append h.digit cs total) ?_
  refine .of_ok (skip?_digits h.digit (by decide) (by decide) _ cs total) ?_
  refine .of_ok (skip?_digits h.digit (by decide) (by decide) _ cs total) ?_
  exact .of_ok (wholeDigits_append h cs total) (hfraction ds)

/-- **A number** is read as an integer, which 64 bits with a sign have to hold. -/
theorem integer_append {n : Nat} (h : IsNumeral ds n) (cs : List Char) (total : Nat) :
    integer ⟨total, ds ++ '\n' :: cs⟩ = bounded false n ⟨total, '\n' :: cs⟩ := by
  have hdecimal : (do
      let negative ← sign
      let magnitude ← wholeDigits
      bounded negative (numeral 10 magnitude) : Reader Int64) ⟨total, ds ++ '\n' :: cs⟩ =
        bounded false n ⟨total, '\n' :: cs⟩ := by
    refine (bind_of_ok (sign_append h.digit cs total)).trans ?_
    refine (bind_of_ok (wholeDigits_append h cs total)).trans ?_
    rw [h.numeral]
  refine (bind_of_ok (rest_eq _ _)).trans ?_
  -- A zero stands alone, so no letter for another base follows it.
  rcases h.zero with rfl | hhead
  · exact hdecimal
  · obtain ⟨d, rest, hrest, hd⟩ := h.exists_cons hhead cs
    rw [← hdecimal]
    generalize ds ++ '\n' :: cs = text at hrest
    split
    all_goals first | exact absurd (List.cons.inj hrest).1.symm hd | rfl

/-- Digits at the end of a line are no date. -/
theorem fails_datetimeValue {n : Nat} (h : IsNumeral ds n) (cs : List Char) (total : Nat) :
    Fails (do
    let (span, text) ← Reader.spanned datetime
    return .datetime span text : Reader Node) ⟨total, ds ++ '\n' :: cs⟩ :=
  (Fails.spanned (fails_datetime h.digit)).bind _

/-- They are no floating-point number either. -/
theorem fails_floatValue {n : Nat} (h : IsNumeral ds n) (cs : List Char) (total : Nat) : Fails (do
    let (span, number) ← Reader.spanned float
    return .float span number : Reader Node) ⟨total, ds ++ '\n' :: cs⟩ :=
  (Fails.spanned (fails_float h)).bind _

/-- A value that begins with a digit is a date, a floating-point number or an integer. -/
theorem value_append {n : Nat} (h : IsNumeral ds n) (bound depth : Nat) (cs : List Char)
    (total : Nat) : value depthLimit (bound + 1) depth ⟨total, ds ++ '\n' :: cs⟩ = (do
      let (span, number) ← Reader.spanned integer
      return .integer span number : Reader Node) ⟨total, ds ++ '\n' :: cs⟩ := by
  refine Eq.trans ?_ ((either_of_fails (fails_datetimeValue h cs total) _).trans
    (either_of_fails (fails_floatValue h cs total) _))
  obtain ⟨d, rest, hrest, hne⟩ := exists_cons_of_digits h.digit cs
  rw [value]
  refine (bind_of_ok (rest_eq _ _)).trans ?_
  have hhead : ∀ c, isDecimal c = false → '\n' ≠ c →
      (({ total, rest := ds ++ '\n' :: cs } : Cursor).rest.head? = some c) = False := by
    intro c hc hline
    rw [hrest]
    simp [hne c hc hline]
  simp only [hhead '"' (by decide) (by decide), hhead '\'' (by decide) (by decide),
    hhead '[' (by decide) (by decide), hhead '{' (by decide) (by decide),
    hhead 't' (by decide) (by decide), hhead 'f' (by decide) (by decide), if_false, decide_false,
    Bool.or_self, Bool.false_eq_true]

/-- The beginning of the seed's line, before other characters. -/
abbrev seedLead (cs : List Char) : List Char :=
  's' :: 'e' :: 'e' :: 'd' :: ' ' :: '=' :: ' ' :: cs

/-- The seed's line up to its number. -/
theorem exists_keyValue_eq {n : Nat} (h : IsNumeral ds n) (cs : List Char) (total : Nat) :
    ∃ place, keyValue depthLimit ⟨total, seedLead (ds ++ '\n' :: cs)⟩ = (do
      let (span, number) ← Reader.spanned integer
      restOfLine
      return ([], ⟨"seed", place⟩, .integer span number) : Reader (List Key × Key × Node))
        ⟨total, ds ++ '\n' :: cs⟩ := by
  have hpath : ∃ place, keyPath depthLimit ⟨total, seedLead (ds ++ '\n' :: cs)⟩ =
      .ok (([], ⟨"seed", place⟩), ⟨total, '=' :: ' ' :: (ds ++ '\n' :: cs)⟩) := ⟨_, rfl⟩
  have hblanks : blanks ⟨total, ' ' :: (ds ++ '\n' :: cs)⟩ =
      .ok ((), ⟨total, ds ++ '\n' :: cs⟩) := by
    obtain ⟨d, rest, hrest, hne⟩ := exists_cons_of_digits h.digit cs
    have hblank : isBlank d = false := by
      simp [isBlank, hne ' ' (by decide) (by decide), hne '\t' (by decide) (by decide)]
    have hleft : (' ' :: d :: rest).dropWhile isBlank = d :: rest := by
      rw [List.dropWhile_cons_of_pos rfl, List.dropWhile_cons_of_neg (Bool.eq_false_iff.mp hblank)]
    have hskipped : blanks ⟨total, ' ' :: d :: rest⟩ =
        .ok ((), ⟨total, (' ' :: d :: rest).dropWhile isBlank⟩) := rfl
    rw [hrest, hskipped, hleft]
  obtain ⟨place, hpath⟩ := hpath
  refine ⟨place, (bind_of_ok hpath).trans ?_⟩
  have hequals : skip ['='] ⟨total, '=' :: ' ' :: (ds ++ '\n' :: cs)⟩ =
      .ok ((), ⟨total, ' ' :: (ds ++ '\n' :: cs)⟩) := rfl
  refine (bind_of_ok hequals).trans ((bind_of_ok hblanks).trans
    ((bind_of_ok (rest_eq _ _)).trans ?_))
  refine (bind_congr_at (value_append h _ 0 cs total) _).trans ?_
  rw [bind_assoc]
  rfl

/-- **The seed's line**, if 64 bits with a sign can hold its number. -/
theorem exists_keyValue_eq_ok {n : Nat} (h : IsNumeral ds n) (hn : n < 2 ^ 63) (cs : List Char)
    (total : Nat) :
    ∃ place span, keyValue depthLimit ⟨total, seedLead (ds ++ '\n' :: cs)⟩ =
      .ok (([], ⟨"seed", place⟩, .integer span (Int64.ofNat n)), ⟨total, cs⟩) := by
  obtain ⟨place, hline⟩ := exists_keyValue_eq h cs total
  have hinteger : integer ⟨total, ds ++ '\n' :: cs⟩ = .ok (Int64.ofNat n, ⟨total, '\n' :: cs⟩) := by
    rw [integer_append h, bounded, if_neg Bool.false_ne_true, if_pos (by simpa using hn)]
    rfl
  obtain ⟨span, hspanned⟩ := exists_spanned hinteger
  exact ⟨place, span, hline.trans ((bind_of_ok hspanned).trans rfl)⟩

/-- **The seed's line**, if its number is too great. -/
theorem fails_keyValue {n : Nat} (h : IsNumeral ds n) (hn : 2 ^ 63 ≤ n) (cs : List Char)
    (total : Nat) : Fails (keyValue depthLimit) ⟨total, seedLead (ds ++ '\n' :: cs)⟩ := by
  obtain ⟨place, hline⟩ := exists_keyValue_eq h cs total
  have hinteger : Fails integer ⟨total, ds ++ '\n' :: cs⟩ := by
    refine ⟨Cursor.offset ⟨total, '\n' :: cs⟩, ?_⟩
    rw [integer_append h, bounded, if_neg Bool.false_ne_true, if_neg (by simpa using hn)]
    rfl
  obtain ⟨stop, herror⟩ := hinteger.spanned.bind fun found => do
    restOfLine
    return (([], ⟨"seed", place⟩, .integer found.1 found.2) : List Key × Key × Node)
  exact ⟨stop, hline.trans herror⟩

end Numerals

end Toml

namespace Config

open Toml Toml.Reader

/-- A line that sets the seed. -/
def seedLine (seed : UInt64) : String := "seed = " ++ toString seed.toNat ++ "\n"

/-- A text with a line that sets the seed in front of all others; a byte order mark stays where
it is. -/
def withSeedLine (text : String) (seed : UInt64) : String :=
  match text.toList with
  | '\ufeff' :: cs => "\ufeff" ++ seedLine seed ++ String.ofList cs
  | _ => seedLine seed ++ text

section Lines

variable {text : String} {seed : UInt64} {node : Node} {config : Config}

/-- The characters of a text that are read as statements: all but a byte order mark in front. -/
def statementsOf (text : String) : List Char :=
  (['\ufeff'].isPrefixOf? text.toList).getD text.toList

theorem statementsOf_of_mark {cs : List Char} (h : text.toList = '\ufeff' :: cs) :
    statementsOf text = cs := by
  rw [statementsOf, h]
  rfl

theorem statementsOf_of_no_mark (h : ∀ cs, text.toList ≠ '\ufeff' :: cs) :
    statementsOf text = text.toList := by
  cases htext : text.toList with
  | nil =>
    rw [statementsOf, htext]
    rfl
  | cons c cs =>
    have hc : '\ufeff' ≠ c := fun heq => h cs (heq ▸ htext)
    have hmark : ['\ufeff'].isPrefixOf? (c :: cs) = none := by
      simp [List.isPrefixOf?, hc]
    rw [statementsOf, htext, hmark, Option.getD_none]

theorem toList_seedLine_append (seed : UInt64) (cs : List Char) :
    (seedLine seed).toList ++ cs = seedLead (Nat.toDigits 10 seed.toNat ++ '\n' :: cs) := by
  have hlead : "seed = ".toList = seedLead [] := by decide
  have hdigits : (toString seed.toNat).toList = Nat.toDigits 10 seed.toNat := Nat.toList_repr
  have hline : "\n".toList = ['\n'] := by decide
  rw [seedLine, String.toList_append, String.toList_append, hlead, hdigits, hline,
    List.append_assoc, List.append_assoc]
  rfl

/-- The line is read before all other statements. -/
theorem statementsOf_withSeedLine (text : String) (seed : UInt64) :
    statementsOf (withSeedLine text seed) =
      seedLead (Nat.toDigits 10 seed.toNat ++ '\n' :: statementsOf text) := by
  have hmark : "\ufeff".toList = ['\ufeff'] := by decide
  unfold withSeedLine
  split
  · rename_i cs htext
    rw [statementsOf_of_mark htext, ← toList_seedLine_append]
    refine statementsOf_of_mark ?_
    rw [String.toList_append, String.toList_append, hmark, String.toList_ofList, List.append_assoc]
    rfl
  · rename_i hother
    have hnew := (String.toList_append (s := seedLine seed) (t := text)).trans
      (toList_seedLine_append seed text.toList)
    rw [statementsOf_of_no_mark hother, statementsOf_of_no_mark, hnew]
    intro cs hcs
    rw [hnew] at hcs
    exact absurd (List.cons.inj hcs).1 (by decide)

/-- A document is its statements. -/
theorem exists_read_eq (text : String) : ∃ total, Document.read text =
    ((do
      let assembly ← statements depthLimit ((statementsOf text).length + 1) .empty
      orFail assembly.toNode : Reader Node) ⟨total, statementsOf text⟩).map (·.1) := by
  refine ⟨octetCount text.toList, congrArg (Except.map fun found : Node × Cursor => found.1) ?_⟩
  have hmark := skip?_eq ['\ufeff'] text.toList (octetCount text.toList)
  exact (bind_of_ok hmark).trans (bind_of_ok (rest_eq _ _))

/-- A text that is a document has statements that make one. -/
theorem exists_of_read_eq_ok (h : Document.read text = .ok node) : ∃ total a left,
    statements depthLimit ((statementsOf text).length + 1) .empty ⟨total, statementsOf text⟩ =
      .ok (a, left) ∧
    a.toNode = some node := by
  obtain ⟨total, hread⟩ := exists_read_eq text
  rw [h] at hread
  cases hdocument : (do
      let assembly ← statements depthLimit ((statementsOf text).length + 1) .empty
      orFail assembly.toNode : Reader Node) ⟨total, statementsOf text⟩ with
  | error place =>
    rw [hdocument] at hread
    cases hread
  | ok found =>
    rw [hdocument] at hread
    obtain ⟨made, left⟩ := found
    obtain rfl := Except.ok.inj hread
    obtain ⟨a, middle, hstatements, hmade⟩ := exists_of_bind_ok hdocument
    refine ⟨total, a, middle, hstatements, ?_⟩
    cases htable : a.toNode with
    | none =>
      rw [htable] at hmade
      cases hmade
    | some table =>
      rw [htable] at hmade
      exact congrArg some (Prod.mk.inj (Except.ok.inj hmade)).1

/-- The seed's entry without its places. -/
def seedEntry (seed : UInt64) : Key × Toml.Draft :=
  (⟨"seed", nowhere⟩, .closed (.integer nowhere (Int64.ofNat seed.toNat)))

/-- The seed's line begins a key with its value. -/
theorem statements_seed (bound : Nat) (a : Assembly) (cs : List Char) (total : Nat) :
    statements depthLimit (bound + 1) a ⟨total, seedLead cs⟩ = (do
      let (path, key, node) ← keyValue depthLimit
      let assembly ← orFail (a.assign path key node)
      statements depthLimit bound assembly : Reader Assembly) ⟨total, seedLead cs⟩ := by
  have hblanks : blanks ⟨total, seedLead cs⟩ = .ok ((), ⟨total, seedLead cs⟩) := rfl
  rw [statements]
  exact (bind_of_ok hblanks).trans (bind_of_ok (rest_eq _ _))

/-- **The seed's line** is a statement in front of all others. -/
theorem exists_statements_eq (hseed : seed.toNat < 2 ^ 63) (bound : Nat) (cs : List Char)
    (total : Nat) : ∃ a, Assembly.Behind (seedEntry seed) .empty a ∧
      statements depthLimit (bound + 1) .empty
          ⟨total, seedLead (Nat.toDigits 10 seed.toNat ++ '\n' :: cs)⟩ =
        statements depthLimit bound a ⟨total, cs⟩ := by
  obtain ⟨place, span, hline⟩ :=
    exists_keyValue_eq_ok (isNumeral_toDigits seed.toNat) hseed cs total
  let number : Node := .integer span (Int64.ofNat seed.toNat)
  have hassign : ∃ a, Assembly.empty.assign [] ⟨"seed", place⟩ number = some a ∧
      Assembly.Behind (seedEntry seed) .empty a := ⟨_, rfl, rfl⟩
  obtain ⟨a, hassign, hbehind⟩ := hassign
  have hchanged : orFail (Assembly.empty.assign [] ⟨"seed", place⟩
      (.integer span (Int64.ofNat seed.toNat))) ⟨total, cs⟩ = .ok (a, ⟨total, cs⟩) := by
    rw [hassign]
    rfl
  refine ⟨a, hbehind, (statements_seed _ _ _ _).trans ?_⟩
  exact (bind_of_ok hline).trans (bind_of_ok hchanged)

/-- **A document in front of which the seed is set.**  It is the same as before but for places
and for the entry of the seed, which comes first. -/
theorem exists_read_withSeedLine {span : Option Span} {entries : List (Key × Node)}
    (hread : Document.read text = .ok (.table span entries))
    (hkeys : "seed" ∉ entries.map (·.1.text)) (hseed : seed.toNat < 2 ^ 63) :
    ∃ node', Document.read (withSeedLine text seed) = .ok node' ∧
      node'.unplaced = .table (some nowhere) ((⟨"seed", nowhere⟩,
        .integer nowhere (Int64.ofNat seed.toNat)) :: Node.unplacedEntries entries) := by
  obtain ⟨total, a, left, hstatements, htable⟩ := exists_of_read_eq_ok hread
  obtain ⟨⟨place, made⟩, hfinish, hmade⟩ := Option.bind_eq_some_iff.mp htable
  obtain ⟨-, rfl⟩ := Node.table.inj (Option.some.inj hmade)
  have hmentioned : "seed" ∉ a.mentioned := fun hmem => by
    rw [Entries.texts_toNodes] at hkeys
    exact hkeys (Assembly.mentioned_subset_of_finish hfinish hmem)
  -- The statements behind the line are read as before.
  obtain ⟨total', hread'⟩ := exists_read_eq (withSeedLine text seed)
  have hlength : (statementsOf (withSeedLine text seed)).length =
      (statementsOf text).length + 1 + (7 + (Nat.toDigits 10 seed.toNat).length) := by
    rw [statementsOf_withSeedLine]
    simp only [List.length_append, List.length_cons]
    omega
  obtain ⟨first, hfirst, hline⟩ := exists_statements_eq hseed
    ((statementsOf text).length + 1 + (7 + (Nat.toDigits 10 seed.toNat).length)) (statementsOf text)
    total'
  obtain ⟨a', hstatements', hbehind⟩ := follows_statements (7 + (Nat.toDigits 10 seed.toNat).length)
    ((statementsOf text).length + 1) hfirst total total' (statementsOf text) a left hstatements
    hmentioned
  -- Their document is the same behind the entry.
  have hfinished : a.unplaced.finish = some (nowhere, made.unplaced) := by
    rw [← Assembly.unplaced_finish, hfinish]
    rfl
  have hunmentioned : (seedEntry seed).1.text ∉ a.unplaced.mentioned := by
    rwa [Assembly.mentioned_unplaced]
  have htable' := Assembly.toNode_withEntry hunmentioned
  rw [← hbehind, ← Assembly.unplaced_toNode, hfinished] at htable'
  obtain ⟨node', hnode', hunplaced⟩ := Option.map_eq_some_iff.mp htable'
  refine ⟨node', ?_, ?_⟩
  · rw [hread', hlength, statementsOf_withSeedLine, bind_of_ok (hline.trans hstatements'), hnode']
    rfl
  · rw [hunplaced, ← Draft.toNodes_unplacedEntries]
    rfl

/-- A text in front of which the seed is set is no document if an integer cannot be that great. -/
theorem exists_read_withSeedLine_eq_error (text : String) (hseed : 2 ^ 63 ≤ seed.toNat) :
    ∃ place, Document.read (withSeedLine text seed) = .error place := by
  obtain ⟨total, hread⟩ := exists_read_eq (withSeedLine text seed)
  obtain ⟨place, herror⟩ := fails_keyValue (isNumeral_toDigits seed.toNat) hseed (statementsOf text)
    total
  have hstatements : ∀ bound, statements depthLimit (bound + 1) .empty
      ⟨total, seedLead (Nat.toDigits 10 seed.toNat ++ '\n' :: statementsOf text)⟩ =
        .error place := fun bound => (statements_seed _ _ _ _).trans (bind_of_error herror)
  rw [statementsOf_withSeedLine, bind_of_error (hstatements _)] at hread
  exact ⟨place, hread⟩

/-- A text that is a document is a table. -/
theorem exists_table_of_read (h : Document.read text = .ok node) :
    ∃ span entries, node = .table span entries := by
  obtain ⟨total, a, left, -, htable⟩ := exists_of_read_eq_ok h
  obtain ⟨⟨place, made⟩, -, hmade⟩ := Option.bind_eq_some_iff.mp htable
  exact ⟨_, _, (Option.some.inj hmade).symm⟩

/-- A text is a configuration if it is a document whose table is one. -/
theorem parse_eq_ok_iff : parse text = .ok config ↔
    ∃ span entries, Document.read text = .ok (.table span entries) ∧
      ofNode (.table span entries) = .ok config := by
  unfold parse
  constructor
  · intro h
    split at h
    · cases h
    rename_i node hread
    split at h
    · cases h
    rename_i parsed hparsed
    obtain ⟨span, entries, rfl⟩ := exists_table_of_read hread
    obtain rfl := Except.ok.inj h
    exact ⟨span, entries, hread, hparsed⟩
  · rintro ⟨span, entries, hread, hconfig⟩
    rw [hread]
    simp only [hconfig]

/-- **The seed that a configuration sets** is less than half of what a seed can be. -/
theorem seed_lt_of_parse (h : parse text = .ok config) (hseed : config.seed = some seed) :
    seed.toNat < 2 ^ 63 := by
  obtain ⟨span, entries, -, hconfig⟩ := parse_eq_ok_iff.mp h
  exact seed_lt_of_ofNode hconfig hseed

/-- **A configuration in front of which the seed is set** is the same but for the seed. -/
theorem parse_withSeedLine (h : parse text = .ok config) (hnone : config.seed = none)
    (hseed : seed.toNat < 2 ^ 63) :
    parse (withSeedLine text seed) = .ok { config with seed := some seed } := by
  obtain ⟨span, entries, hread, hconfig⟩ := parse_eq_ok_iff.mp h
  have hkeys : "seed" ∉ entries.map (·.1.text) := by
    rw [mem_keys_iff_of_ofNode hconfig, hnone]
    exact Bool.false_ne_true
  obtain ⟨node', hread', hunplaced⟩ := exists_read_withSeedLine hread hkeys hseed
  obtain ⟨span', entries', rfl⟩ := exists_table_of_read hread'
  refine parse_eq_ok_iff.mpr ⟨span', entries', hread', ?_⟩
  -- Both configurations are the same if places are forgotten.
  have hplaceless : ofNode (.table (span.map fun _ => nowhere) (Node.unplacedEntries entries)) =
      .ok config := by
    have hsame := toOption_ofNode_unplaced (.table span entries)
    rw [hconfig] at hsame
    exact toOption_eq_some_iff.mp hsame
  obtain ⟨hvalue, hword⟩ := toUInt64_ofNat_toNat hseed
  have hset := toOption_ofNode_unplaced (.table span' entries')
  rw [hunplaced, ofNode_cons_seed hplaceless hnone rfl hvalue, hword] at hset
  exact toOption_eq_some_iff.mp hset.symm

/-- **A text in front of which the seed is set** is no configuration if the seed is too great. -/
theorem exists_parse_withSeedLine_eq_error (text : String) (hseed : 2 ^ 63 ≤ seed.toNat) :
    ∃ place, parse (withSeedLine text seed) = .error (.syntaxError place) := by
  obtain ⟨place, hread⟩ := exists_read_withSeedLine_eq_error text hseed
  exact ⟨place, by rw [parse, hread]⟩

end Lines

end Config

end EngineFuzz
