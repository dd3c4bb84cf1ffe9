import EngineFuzz.Proofs.HarnessScan
import Mathlib.Data.List.Basic
import Mathlib.Data.List.Induction
import Mathlib.Data.List.TakeWhile
import Mathlib.Data.Nat.Digits.Defs
/-!
# The grammar of input declarations

A reader of declarations goes from left to right and never tries a second time.  The grammar is
stated here without reading: a `Writing` is a choice of all parts of a line, which carries the
proofs that its blanks are blank and its words are words, and `Writing.text` puts the parts
together.

The parts are told apart because each is a run of one kind of character and what stands behind
it begins with another kind: a blank is no word character, and the signs between are neither.
So a run that is taken as far as it goes is the part that was written, which settles both that a
written line is read and that it is written in one way only.

* `Text.isWord_eq_false_of_isBlank` — white space and word characters have nothing in common;
* `Text.span_append`, `Text.eq_of_append_eq` — a run and what stands behind it;
* `Declaration.parse?_text`, `Declaration.exists_writing_of_parse?` — what is written is read,
  and nothing else;
* `Declaration.Writing.text_injective` — a line is written in one way;
* `Sample.ofLiteral?_eq_some_iff` — the literals with a value, digits as the number they stand for;
* `scan_fixed_inputs` — a scan takes the lines of the grammar one by one.
-/

namespace EngineFuzz

open Randomness
open Text (isBlank isWord linesOf scriptLines)

namespace Text

/-- White space is made of twenty-five characters, none of which is a word character. -/
theorem isWord_eq_false_of_isBlank {c : Char} (h : isBlank c = true) : isWord c = false := by
  let points :=
    [9, 10, 11, 12, 13, 0x20, 0x85, 0xa0, 0x1680, 0x2000, 0x2001, 0x2002, 0x2003, 0x2004,
    0x2005, 0x2006, 0x2007, 0x2008, 0x2009, 0x200a, 0x2028, 0x2029, 0x202f, 0x205f, 0x3000]
  have hpoint : c.toNat ∈ points := by
    simp only [isBlank, Bool.or_eq_true, Bool.and_eq_true, decide_eq_true_eq] at h
    simp only [points, List.mem_cons, List.not_mem_nil, or_false]
    omega
  have hpoints : ∀ n ∈ points, isWord (Char.ofNat n) = false := by decide +kernel
  have hword := hpoints c.toNat hpoint
  rwa [Char.ofNat_toNat] at hword

/-- A word character is not blank. -/
theorem isBlank_eq_false_of_isWord {c : Char} (h : isWord c = true) : isBlank c = false := by
  cases hblank : isBlank c with
  | false => rfl
  | true =>
      rw [isWord_eq_false_of_isBlank hblank] at h
      cases h

/-- What a text begins with is not of a kind. -/
def BeginsOutside (p : Char → Bool) (cs : List Char) : Prop := ∀ c ∈ cs.head?, p c = false

variable {p : Char → Bool} {run rest : List Char}

/-- **A run is taken as far as it goes,** which is to the first character of another kind. -/
theorem span_append (hrun : ∀ c ∈ run, p c = true) (hrest : BeginsOutside p rest) :
    (run ++ rest).takeWhile p = run ∧ (run ++ rest).dropWhile p = rest := by
  rw [List.takeWhile_append_of_pos hrun, List.dropWhile_append_of_pos hrun]
  cases rest with
  | nil => simp
  | cons c rest =>
      have hc : p c = false := hrest c rfl
      simp [hc]

/-- Two runs before characters of another kind are the same if the texts are. -/
theorem eq_of_append_eq {run' rest' : List Char} (hrun : ∀ c ∈ run, p c = true)
    (hrun' : ∀ c ∈ run', p c = true) (hrest : BeginsOutside p rest) (hrest' : BeginsOutside p rest')
    (h : run ++ rest = run' ++ rest') : run = run' ∧ rest = rest' := by
  obtain ⟨htake, hdrop⟩ := span_append hrun hrest
  obtain ⟨htake', hdrop'⟩ := span_append hrun' hrest'
  rw [h] at htake hdrop
  exact ⟨htake.symm.trans htake', hdrop.symm.trans hdrop'⟩

/-- A character of another kind begins a text outside. -/
theorem beginsOutside_cons {c : Char} (hc : p c = false) (cs : List Char) :
    BeginsOutside p (c :: cs) :=
  fun _ h => Option.some.inj h ▸ hc

end Text

namespace Declaration

open Text (BeginsOutside beginsOutside_cons span_append eq_of_append_eq isBlank_eq_false_of_isWord
  isWord_eq_false_of_isBlank)

/-- Blanks, maybe none. -/
abbrev Blanks := { cs : List Char // ∀ c ∈ cs, isBlank c = true }

/-- A non-empty run of word characters. -/
abbrev Word := { cs : List Char // cs ≠ [] ∧ ∀ c ∈ cs, isWord c = true }

/-- What stands before the name. -/
inductive Introduction where
  /-- A member of the object at hand. -/
  | member
  /-- A keyword of variables, and one blank at least. -/
  | keyword (word : String) (gap : Blanks)
    (isKeyword : word ∈ ["var", "let", "const"]) (hasGap : gap.val ≠ [])

/-- The text before the name. -/
def Introduction.text : Introduction → List Char
  | .member => "this.".toList
  | .keyword word gap _ _ => word.toList ++ gap.val

/-- The parts of a declaration line. -/
@[ext] structure Writing where
  indent : Blanks
  introduction : Introduction
  name : Word
  beforeSign : Blanks
  afterSign : Blanks
  literal : Word
  beforeMarker : Blanks

namespace Writing

/-- What stands behind the semicolon. -/
def comment (w : Writing) : List Char := w.beforeMarker.val ++ "// input".toList

/-- What stands behind the sign of equality. -/
def value (w : Writing) : List Char := w.afterSign.val ++ (w.literal.val ++ ';' :: w.comment)

/-- What stands behind the introduction. -/
def assignment (w : Writing) : List Char := w.name.val ++ (w.beforeSign.val ++ '=' :: w.value)

/-- The line that the parts make. -/
def text (w : Writing) : List Char := w.indent.val ++ (w.introduction.text ++ w.assignment)

end Writing

section Heads

/-- A word does not begin with a blank. -/
theorem beginsOutside_word (word : Word) (rest : List Char) :
    BeginsOutside isBlank (word.val ++ rest) := by
  obtain ⟨cs, hne, hword⟩ := word
  cases cs with
  | nil => exact absurd rfl hne
  | cons c cs => exact beginsOutside_cons (isBlank_eq_false_of_isWord (hword c (by simp))) _

/-- Blanks before another character that is no word character do not continue a word. -/
theorem beginsOutside_blanks (blanks : Blanks) {c : Char} (hc : isWord c = false)
    (rest : List Char) : BeginsOutside isWord (blanks.val ++ c :: rest) := by
  obtain ⟨cs, hblank⟩ := blanks
  cases cs with
  | nil => exact beginsOutside_cons hc rest
  | cons b cs => exact beginsOutside_cons (isWord_eq_false_of_isBlank (hblank b (by simp))) _

/-- What introduces a name does not begin with a blank. -/
theorem beginsOutside_introduction (introduction : Introduction) (rest : List Char) :
    BeginsOutside isBlank (introduction.text ++ rest) := by
  cases introduction with
  | member => exact beginsOutside_cons (by decide) _
  | keyword word gap isKeyword hasGap =>
      simp only [List.mem_cons, List.not_mem_nil, or_false] at isKeyword
      rcases isKeyword with rfl | rfl | rfl <;> exact beginsOutside_cons (by decide) _

end Heads

section Reading

/-- Blanks are passed over. -/
theorem dropWhile_blanks (blanks : Blanks) {rest : List Char} (hrest : BeginsOutside isBlank rest) :
    (blanks.val ++ rest).dropWhile isBlank = rest :=
  (span_append blanks.property hrest).2

/-- A text begins with the blanks that are passed over. -/
theorem exists_blanks_append (cs : List Char) :
    ∃ blanks : Blanks, cs = blanks.val ++ cs.dropWhile isBlank :=
  ⟨⟨cs.takeWhile isBlank, fun _ hc => List.mem_takeWhile_imp hc⟩,
    List.takeWhile_append_dropWhile.symm⟩

/-- A word is read to its end. -/
theorem word?_append (word : Word) {rest : List Char} (hrest : BeginsOutside isWord rest) :
    word? (word.val ++ rest) = some (word.val, rest) := by
  obtain ⟨htake, hdrop⟩ := span_append word.property.2 hrest
  rw [word?, htake, hdrop]
  split
  · next hnil => exact absurd hnil word.property.1
  · rfl

/-- What is read as a word is one, and what is left stands behind it. -/
theorem exists_of_word? {cs read rest : List Char} (h : word? cs = some (read, rest)) :
    ∃ word : Word, word.val = read ∧ cs = word.val ++ rest := by
  rw [word?] at h
  split at h
  · cases h
  · next hne =>
      cases h
      exact ⟨⟨_, hne, fun c hc => List.mem_takeWhile_imp hc⟩, rfl,
        List.takeWhile_append_dropWhile.symm⟩

/-- A sign is read. -/
theorem after?_cons (c : Char) (rest : List Char) : after? c (c :: rest) = some rest := if_pos rfl

/-- What is left behind a sign stands behind it. -/
theorem eq_cons_of_after? {c : Char} {cs rest : List Char} (h : after? c cs = some rest) :
    cs = c :: rest := by
  cases cs with
  | nil => cases h
  | cons d cs =>
      rw [after?] at h
      split at h
      · next heq => rw [heq, Option.some.inj h]
      · cases h

/-- Blanks, of which there is one at least, are passed over. -/
theorem afterBlanks?_append {gap : Blanks} (hne : gap.val ≠ []) {rest : List Char}
    (hrest : BeginsOutside isBlank rest) : afterBlanks? (gap.val ++ rest) = some rest := by
  obtain ⟨cs, hblank⟩ := gap
  cases cs with
  | nil => exact absurd rfl hne
  | cons c cs =>
      obtain ⟨hc, hcs⟩ := List.forall_mem_cons.mp hblank
      rw [List.cons_append, afterBlanks?, if_pos hc]
      exact congrArg some (span_append hcs hrest).2

/-- What is left behind blanks stands behind one blank at least. -/
theorem exists_of_afterBlanks? {cs rest : List Char} (h : afterBlanks? cs = some rest) :
    ∃ gap : Blanks, gap.val ≠ [] ∧ cs = gap.val ++ rest := by
  cases cs with
  | nil => cases h
  | cons c cs =>
      rw [afterBlanks?] at h
      split at h
      · next hc =>
          have hrest : cs.dropWhile isBlank = rest := Option.some.inj h
          refine ⟨⟨c :: cs.takeWhile isBlank, List.forall_mem_cons.mpr
            ⟨hc, fun d hd => List.mem_takeWhile_imp hd⟩⟩, List.cons_ne_nil _ _, ?_⟩
          rw [← hrest, List.cons_append, List.takeWhile_append_dropWhile]
      · cases h

/-- What introduces a name is passed over. -/
theorem afterIntroduction?_append (introduction : Introduction) {rest : List Char}
    (hrest : BeginsOutside isBlank rest) :
    afterIntroduction? (introduction.text ++ rest) = some rest := by
  cases introduction with
  | member => simp [Introduction.text, afterIntroduction?, List.isPrefixOf?]
  | keyword word gap isKeyword hasGap =>
      have hgap := afterBlanks?_append hasGap hrest
      simp only [List.mem_cons, List.not_mem_nil, or_false] at isKeyword
      rcases isKeyword with rfl | rfl | rfl <;>
        simp [Introduction.text, afterIntroduction?, keywords, List.isPrefixOf?, hgap]

/-- What is left behind an introduction stands behind one. -/
theorem exists_of_afterIntroduction? {cs rest : List Char} (h : afterIntroduction? cs = some rest) :
    ∃ introduction : Introduction, cs = introduction.text ++ rest := by
  rw [afterIntroduction?] at h
  split at h
  · next after hmember =>
      cases h
      exact ⟨.member, (List.append_eq_of_isPrefixOf?_eq_some hmember).symm⟩
  · obtain ⟨word, hword, hafter⟩ := List.exists_of_findSome?_eq_some h
    obtain ⟨after, hprefix, hblanks⟩ := Option.bind_eq_some_iff.mp hafter
    obtain ⟨gap, hgap, rfl⟩ := exists_of_afterBlanks? hblanks
    have hcs : word ++ (gap.val ++ rest) = cs := List.append_eq_of_isPrefixOf?_eq_some hprefix
    have hkeyword : String.ofList word ∈ ["var", "let", "const"] := by
      have hkeywords : ∀ word ∈ keywords, String.ofList word ∈ ["var", "let", "const"] := by decide
      exact hkeywords word hword
    refine ⟨.keyword (String.ofList word) gap hkeyword hgap, ?_⟩
    rw [Introduction.text, String.toList_ofList, List.append_assoc, hcs]

/-- **What is written is read.** -/
theorem parse?_text (w : Writing) : parse? w.text = some ⟨w.name.val, w.literal.val⟩ := by
  have hindent : w.text.dropWhile isBlank = w.introduction.text ++ w.assignment :=
    dropWhile_blanks w.indent (beginsOutside_introduction _ _)
  have hintroduction : afterIntroduction? (w.introduction.text ++ w.assignment) =
      some w.assignment :=
    afterIntroduction?_append w.introduction (beginsOutside_word _ _)
  have hname : word? w.assignment = some (w.name.val, w.beforeSign.val ++ '=' :: w.value) :=
    word?_append w.name (beginsOutside_blanks _ (by decide) _)
  have hsign : (w.beforeSign.val ++ '=' :: w.value).dropWhile isBlank = '=' :: w.value :=
    dropWhile_blanks w.beforeSign (beginsOutside_cons (by decide) _)
  have hvalue : w.value.dropWhile isBlank = w.literal.val ++ ';' :: w.comment :=
    dropWhile_blanks w.afterSign (beginsOutside_word _ _)
  have hliteral : word? (w.literal.val ++ ';' :: w.comment) =
      some (w.literal.val, ';' :: w.comment) :=
    word?_append w.literal (beginsOutside_cons (by decide) _)
  have hcomment : w.comment.dropWhile isBlank = marker :=
    dropWhile_blanks w.beforeMarker (beginsOutside_cons (by decide) _)
  simp only [parse?, hindent, hintroduction, hname, hsign, hvalue, hliteral, hcomment, after?_cons,
    Option.bind_eq_bind, Option.bind_some, if_true]

/-- **What is read is written.** -/
theorem exists_writing_of_parse? {line : List Char} {declaration : Declaration}
    (h : parse? line = some declaration) :
    ∃ w : Writing, w.text = line ∧ w.name.val = declaration.name ∧
      w.literal.val = declaration.literal := by
  obtain ⟨assignment, hintroduction, h⟩ := Option.bind_eq_some_iff.mp h
  obtain ⟨⟨name, sign⟩, hname, h⟩ := Option.bind_eq_some_iff.mp h
  obtain ⟨value, hsign, h⟩ := Option.bind_eq_some_iff.mp h
  obtain ⟨⟨literal, ending⟩, hliteral, h⟩ := Option.bind_eq_some_iff.mp h
  obtain ⟨comment, hending, hmarker⟩ := Option.bind_eq_some_iff.mp h
  obtain ⟨introduction, hline⟩ := exists_of_afterIntroduction? hintroduction
  obtain ⟨nameWord, rfl, rfl⟩ := exists_of_word? hname
  obtain ⟨literalWord, rfl, hvalue⟩ := exists_of_word? hliteral
  have hequal := eq_cons_of_after? hsign
  obtain rfl := eq_cons_of_after? hending
  obtain ⟨indent, hindent⟩ := exists_blanks_append line
  obtain ⟨beforeSign, hbeforeSign⟩ := exists_blanks_append sign
  obtain ⟨afterSign, hafterSign⟩ := exists_blanks_append value
  obtain ⟨beforeMarker, hbeforeMarker⟩ := exists_blanks_append comment
  split at hmarker
  · next hcomment =>
      cases hmarker
      refine ⟨⟨indent, introduction, nameWord, beforeSign, afterSign, literalWord,
        beforeMarker⟩, ?_, rfl, rfl⟩
      rw [hindent, hline, hbeforeSign, hequal, hafterSign, hvalue, hbeforeMarker, hcomment]
      rfl
  · cases hmarker

end Reading

section Uniqueness

/-- An introduction is told from its text: a keyword ends where the blanks begin. -/
theorem Introduction.text_injective : Function.Injective Introduction.text := by
  have hkeywords : ∀ word ∈ ["var", "let", "const"],
      word.toList.head? ≠ some 't' ∧ word.toList ≠ [] ∧ word.toList.all isWord = true := by
    decide +kernel
  have hmember : ∀ {word : String} {gap : Blanks}, word ∈ ["var", "let", "const"] →
      "this.".toList ≠ word.toList ++ gap.val := by
    intro word gap hword h
    obtain ⟨hhead, hne, -⟩ := hkeywords word hword
    have hfirst := congrArg List.head? h
    rw [List.head?_append_of_ne_nil _ hne] at hfirst
    exact hhead hfirst.symm
  have hgap : ∀ {gap : Blanks}, gap.val ≠ [] → BeginsOutside isWord gap.val := by
    intro gap hne c hc
    exact isWord_eq_false_of_isBlank (gap.property c (List.mem_of_mem_head? hc))
  intro first second h
  cases first with
  | member =>
      cases second with
      | member => rfl
      | keyword word gap isKeyword hasGap => exact absurd h (hmember isKeyword)
  | keyword word gap isKeyword hasGap =>
      cases second with
      | member => exact absurd h.symm (hmember isKeyword)
      | keyword other otherGap otherIsKeyword otherHasGap =>
          have hrun := List.all_eq_true.mp (hkeywords word isKeyword).2.2
          have hotherRun := List.all_eq_true.mp (hkeywords other otherIsKeyword).2.2
          obtain ⟨hword, hblanks⟩ :=
            eq_of_append_eq hrun hotherRun (hgap hasGap) (hgap otherHasGap) h
          obtain rfl := String.toList_inj.mp hword
          obtain rfl := Subtype.ext hblanks
          rfl

/-- **A line is written in one way.**  Part by part, a run is the same in both writings, and so
is what stands behind it. -/
theorem Writing.text_injective : Function.Injective Writing.text := by
  intro w v h
  obtain ⟨hindent, h⟩ := eq_of_append_eq w.indent.property v.indent.property
    (beginsOutside_introduction _ _) (beginsOutside_introduction _ _) h
  have hassignment : w.assignment = v.assignment := by
    have hread := congrArg afterIntroduction? h
    have hhead : ∀ u : Writing, BeginsOutside isBlank u.assignment :=
      fun _ => beginsOutside_word _ _
    rw [afterIntroduction?_append _ (hhead w), afterIntroduction?_append _ (hhead v)] at hread
    exact Option.some.inj hread
  have hintroduction : w.introduction = v.introduction := by
    rw [hassignment] at h
    exact Introduction.text_injective (List.append_cancel_right h)
  obtain ⟨hname, h⟩ := eq_of_append_eq w.name.property.2 v.name.property.2
    (beginsOutside_blanks _ (by decide) _) (beginsOutside_blanks _ (by decide) _) hassignment
  obtain ⟨hbeforeSign, h⟩ := eq_of_append_eq w.beforeSign.property v.beforeSign.property
    (beginsOutside_cons (by decide) _) (beginsOutside_cons (by decide) _) h
  have hvalue : w.value = v.value := (List.cons.inj h).2
  obtain ⟨hafterSign, h⟩ := eq_of_append_eq w.afterSign.property v.afterSign.property
    (beginsOutside_word _ _) (beginsOutside_word _ _) hvalue
  obtain ⟨hliteral, h⟩ := eq_of_append_eq w.literal.property.2 v.literal.property.2
    (beginsOutside_cons (by decide) _) (beginsOutside_cons (by decide) _) h
  have hbeforeMarker : w.beforeMarker.val = v.beforeMarker.val :=
    List.append_cancel_right (List.cons.inj h).2
  exact Writing.ext (Subtype.ext hindent) hintroduction (Subtype.ext hname)
    (Subtype.ext hbeforeSign)
    (Subtype.ext hafterSign) (Subtype.ext hliteral) (Subtype.ext hbeforeMarker)

end Uniqueness

end Declaration

namespace Sample

/-- **The literals with a value.**  The two names of truth values, and decimal digits, leading zeros
included, for a number that a signed 64-bit integer holds. -/
inductive Denotes : List Char → InputKind → Sample → Prop
  | yes : Denotes "true".toList .boolean (.boolean true)
  | no : Denotes "false".toList .boolean (.boolean false)
  | digits (places : List Nat) (isDigit : ∀ place ∈ places, place < 10)
    (inRange : Nat.ofDigits 10 places.reverse ≤ 2 ^ 63 - 1) :
    Denotes (places.map Nat.digitChar) .integer (.integer (Nat.ofDigits 10 places.reverse))

/-- A digit is the character of a number below ten. -/
theorem exists_digitChar {c : Char} (h : isDigit c = true) :
    ∃ place, place < 10 ∧ c = Nat.digitChar place := by
  simp only [isDigit, Bool.and_eq_true, decide_eq_true_eq, Char.le_def, UInt32.le_iff_toNat_le] at h
  have hall : ∀ place < 10, Char.ofNat (48 + place) = Nat.digitChar place := by decide
  have hzero : '0'.val.toNat = 48 := rfl
  have hnine : '9'.val.toNat = 57 := rfl
  have hnumber : c.toNat = c.val.toNat := rfl
  refine ⟨c.toNat - 48, by omega, ?_⟩
  rw [← hall _ (by omega), show 48 + (c.toNat - 48) = c.toNat by omega, Char.ofNat_toNat]

/-- The character of a number below ten is a digit, which stands for that number. -/
theorem isDigit_digitChar : ∀ place < 10,
    isDigit (Nat.digitChar place) = true ∧ (Nat.digitChar place).toNat - 48 = place := by decide

/-- Digits are the characters of numbers below ten. -/
theorem exists_places {literal : List Char} (h : literal.all isDigit = true) :
    ∃ places : List Nat, (∀ place ∈ places, place < 10) ∧ literal = places.map Nat.digitChar := by
  induction literal with
  | nil => exact ⟨[], by simp, rfl⟩
  | cons c literal ih =>
      rw [List.all_cons, Bool.and_eq_true] at h
      obtain ⟨place, hplace, rfl⟩ := exists_digitChar h.1
      obtain ⟨places, hplaces, rfl⟩ := ih h.2
      exact ⟨place :: places, List.forall_mem_cons.mpr ⟨hplace, hplaces⟩, rfl⟩

/-- Digits are read from the left as the number that they stand for, the last place counting one. -/
theorem numeral_map_digitChar {places : List Nat} (h : ∀ place ∈ places, place < 10) :
    numeral (places.map Nat.digitChar) = Nat.ofDigits 10 places.reverse := by
  induction places using List.reverseRecOn with
  | nil => rfl
  | append_singleton places place ih =>
      rw [List.forall_mem_append, List.forall_mem_singleton] at h
      have hplace := (isDigit_digitChar place h.2).2
      have hfront := ih h.1
      rw [numeral] at hfront
      rw [numeral, List.map_append, List.foldl_append, hfront, List.reverse_append,
        List.reverse_singleton, List.singleton_append, Nat.ofDigits_cons, List.map_singleton,
        List.foldl_cons, List.foldl_nil, hplace, Nat.add_comm]

/-- **A literal is read as its value, and one without a value is not read.** -/
theorem ofLiteral?_eq_some_iff {literal : List Char} {kind : InputKind} {sample : Sample} :
    ofLiteral? literal = some sample ∧ sample.kind = kind ↔ Denotes literal kind sample := by
  constructor
  · rintro ⟨h, rfl⟩
    rw [ofLiteral?] at h
    split at h
    · next htrue =>
        cases h
        rw [htrue]
        exact .yes
    · split at h
      · next hfalse =>
          cases h
          rw [hfalse]
          exact .no
      · split at h
        · next hdigits =>
            cases h
            rw [Bool.and_eq_true, decide_eq_true_eq] at hdigits
            obtain ⟨places, hplaces, rfl⟩ := exists_places hdigits.1
            have hrange := hdigits.2
            rw [numeral_map_digitChar hplaces] at hrange ⊢
            exact .digits places hplaces (by omega)
        · cases h
  · intro h
    cases h with
    | yes => exact ⟨rfl, rfl⟩
    | no => exact ⟨rfl, rfl⟩
    | digits places hplaces hrange =>
        have hall : (places.map Nat.digitChar).all isDigit = true := by
          rw [List.all_map, List.all_eq_true]
          exact fun place hplace => (isDigit_digitChar place (hplaces place hplace)).1
        have hne : ∀ word : List Char, word.all isDigit = false →
            places.map Nat.digitChar ≠ word := by
          rintro word hword rfl
          rw [hall] at hword
          cases hword
        have hnumeral := numeral_map_digitChar hplaces
        refine ⟨?_, rfl⟩
        rw [ofLiteral?, if_neg (hne _ (by decide)), if_neg (hne _ (by decide)), hall, hnumeral,
          Bool.true_and, if_pos (by simp; omega)]

end Sample

namespace Discovery

/-- What a line declares with a value: the name, the kind and the value. -/
def specOf (line : List Char) : Option (String × InputKind × Sample) :=
  (Declaration.parse? line).bind fun declaration =>
    (Sample.ofLiteral? declaration.literal).map fun sample =>
      (String.ofList declaration.name, sample.kind, sample)

/-- **A line declares what the grammar says.**  Something is declared exactly if the line is
written with a literal that has a value. -/
theorem specOf_eq_some_iff {line : List Char} {name : String} {kind : InputKind} {sample : Sample} :
    specOf line = some (name, kind, sample) ↔
      ∃ w : Declaration.Writing, w.text = line ∧ w.name.val = name.toList ∧
        Sample.Denotes w.literal.val kind sample := by
  constructor
  · intro h
    obtain ⟨declaration, hparse, h⟩ := Option.bind_eq_some_iff.mp h
    obtain ⟨value, hliteral, h⟩ := Option.map_eq_some_iff.mp h
    obtain ⟨w, htext, hname, hwritten⟩ := Declaration.exists_writing_of_parse? hparse
    cases h
    refine ⟨w, htext, ?_, ?_⟩
    · rw [hname, String.toList_ofList]
    · rw [hwritten]
      exact Sample.ofLiteral?_eq_some_iff.mp ⟨hliteral, rfl⟩
  · rintro ⟨w, rfl, hname, hliteral⟩
    obtain ⟨hvalue, rfl⟩ := Sample.ofLiteral?_eq_some_iff.mpr hliteral
    simp only [specOf, Declaration.parse?_text, Option.bind_some, hvalue, Option.map_some, hname,
      String.ofList_toList]

/-- **A scan with the declared values takes the lines one by one,** each with its number, and
leaves the random source alone. -/
theorem scanLines_fixed (number : Nat) (lines : List (List Char)) (random : Source) :
    (scanLines .fixed number lines random).1.inputs.map
        (fun input => (input.line, input.name, input.kind, input.sample)) =
      (lines.zipIdx number).filterMap
        (fun (line, place) => (specOf line).map fun spec => (place, spec)) ∧
      (scanLines .fixed number lines random).2 = random := by
  induction lines generalizing number with
  | nil => exact ⟨rfl, rfl⟩
  | cons line lines ih =>
      obtain ⟨hinputs, hrandom⟩ := ih (number + 1)
      rw [List.zipIdx_cons]
      cases hparse : Declaration.parse? line with
      | none =>
          have hspec : specOf line = none := by rw [specOf, hparse, Option.bind_none]
          simp only [scanLines_cons_of_none hparse, List.filterMap_cons, hspec, Option.map_none]
          exact ⟨hinputs, hrandom⟩
      | some declaration =>
          cases hliteral : Sample.ofLiteral? declaration.literal with
          | none =>
              have hspec : specOf line = none := by
                rw [specOf, hparse, Option.bind_some, hliteral, Option.map_none]
              simp only [scanLines_cons_of_skipped hparse hliteral, List.filterMap_cons, hspec,
                Option.map_none]
              exact ⟨hinputs, hrandom⟩
          | some sample =>
              have hspec : specOf line =
                  some (String.ofList declaration.name, sample.kind, sample) := by
                rw [specOf, hparse, Option.bind_some, hliteral, Option.map_some]
              simp only [scanLines_cons_of_declared hparse hliteral, List.filterMap_cons, hspec,
                Option.map_some, List.map_cons]
              exact ⟨congrArg _ hinputs, hrandom⟩

end Discovery

/-- **A scan finds exactly what the grammar declares.**  A line is written in one way at most.
There is a reading of lines which gives a name, a kind and a value exactly to the lines that are
written with that name and a literal of that kind and value; and whatever the random source, a
scan that takes the declared values finds, in the order of the lines of the source and numbered
from one, what this reading gives for each line by itself. -/
theorem scan_fixed_inputs :
    (∀ w v : Declaration.Writing, w.text = v.text → w = v) ∧
      ∃ reading : String → Option (String × InputKind × Sample),
        (∀ line name kind sample, reading line = some (name, kind, sample) ↔
          ∃ w : Declaration.Writing, w.text = line.toList ∧ w.name.val = name.toList ∧
            Sample.Denotes w.literal.val kind sample) ∧
        ∀ (source : String) (random : Source),
          (scan .fixed source random).1.inputs.map
              (fun input => (input.line, input.name, input.kind, input.sample)) =
            ((linesOf source).zipIdx 1).filterMap
              fun (line, number) => (reading line).map fun spec => (number, spec) := by
  refine ⟨fun w v h => Declaration.Writing.text_injective h,
    fun line => Discovery.specOf line.toList,
    fun line name kind sample => Discovery.specOf_eq_some_iff, fun source random => ?_⟩
  have hlines : scriptLines source.toList = (linesOf source).map String.toList := by
    simp [linesOf]
  rw [scan, hlines, (Discovery.scanLines_fixed 1 _ random).1, List.zipIdx_map, List.filterMap_map]
  rfl

end EngineFuzz
