import EngineFuzz.Proofs.HarnessLines
import Mathlib.Data.List.Find
/-!
# What a harness is made from

A harness is plain text, and the program in it may itself hold lines of the template, markers
included.  Still the text tells what it was made from.  Whether it begins with a directive is
seen from its first character; behind the directive stands the line with the loop marker, and
the last four lines are the template's whatever stands before them.  So both markers are found
from the two ends, and what is left is the program, line by line.

Nothing more of the program can be found, since a harness depends on the lines of its source
alone.  For the program's own lines that is plain; for the directive it holds because a
directive, which has no line end, is a prefix of the source exactly if it is one of the first
line.

* `isPrefixOf_eq_head?`, `pragmaOf_eq_head?` — the directive is found in the first line;
* `lines_eq_iff` — the lines of two harnesses are equal if their markers and programs are;
* `render_text_eq_iff` — so are their texts.
-/

namespace EngineFuzz

open Text (IsClear Terminates isLineEnd scriptLines linesOf)

/-- A clear text stands before a line end only if it stands within the line. -/
theorem Text.prefix_of_prefix_append {directive line terminator rest : List Char}
    (hclear : IsClear directive) (hend : Terminates terminator rest)
    (h : directive <+: line ++ (terminator ++ rest)) : directive <+: line := by
  rcases List.prefix_or_prefix_of_prefix h (List.prefix_append line _) with hwithin | hbeyond
  · exact hwithin
  · obtain ⟨more, rfl⟩ := hbeyond
    cases more with
    | nil =>
        have hwhole : line ++ [] = line := List.append_nil line
        exact hwhole.symm ▸ List.prefix_refl line
    | cons c more =>
        obtain ⟨first, others, rfl, hfirst⟩ := hend.exists_cons
        have hmore : c :: more <+: first :: (others ++ rest) :=
          (List.prefix_append_right_inj line).mp h
        obtain ⟨rfl, -⟩ := List.cons_prefix_cons.mp hmore
        have hc : isLineEnd c = false := hclear c (by simp)
        rw [hfirst] at hc
        cases hc

/-- **A clear text begins a script exactly if it begins the first line.** -/
theorem Text.isPrefixOf_eq_head? {directive : List Char} (hclear : IsClear directive)
    (hne : directive ≠ []) (cs : List Char) :
    directive.isPrefixOf cs = (scriptLines cs).head?.any (directive.isPrefixOf ·) := by
  rcases Text.isClear_or_exists_terminates cs with hcs | ⟨line, terminator, rest, rfl, hline, hend⟩
  · by_cases hnil : cs = []
    · subst hnil
      cases directive with
      | nil => exact absurd rfl hne
      | cons c directive =>
          rw [Text.scriptLines_nil]
          rfl
    · rw [Text.scriptLines_of_isClear hnil hcs]
      rfl
  · rw [Text.scriptLines_append hline hend, List.head?_cons, Option.any_some, Bool.eq_iff_iff,
      List.isPrefixOf_iff_prefix, List.isPrefixOf_iff_prefix]
    exact ⟨Text.prefix_of_prefix_append hclear hend,
      fun h => h.trans (List.prefix_append line _)⟩

namespace HarnessLayout

/-- **The directive is found in the first line.** -/
theorem pragmaOf_eq_head? (source : String) :
    pragmaOf source = (linesOf source).head?.bind pragmaOf := by
  have hstrict : ∀ pragma ∈ strictPragmas, IsClear pragma.toList ∧ pragma.toList ≠ [] := by decide
  have hfirst : (linesOf source).head? = (scriptLines source.toList).head?.map String.ofList :=
    List.head?_map
  cases hhead : (scriptLines source.toList).head? with
  | none =>
      rw [hfirst, hhead]
      refine List.find?_eq_none.mpr fun pragma hpragma => ?_
      obtain ⟨hclear, hne⟩ := hstrict pragma hpragma
      rw [Text.isPrefixOf_eq_head? hclear hne, hhead]
      simp
  | some line =>
      rw [hfirst, hhead, Option.map_some, Option.bind_some, pragmaOf, pragmaOf]
      refine List.find?_congr fun pragma hpragma => ?_
      obtain ⟨hclear, hne⟩ := hstrict pragma hpragma
      rw [Text.isPrefixOf_eq_head? hclear hne, hhead, String.toList_ofList]
      rfl

/-- The line that opens the loop is no directive. -/
theorem loopOpening_ne_toList {source directive : String} (ids : HarnessIds)
    (h : pragmaOf source = some directive) : loopOpening ids ≠ directive.toList := by
  have hmem : directive ∈ strictPragmas := List.mem_of_find?_eq_some h
  have hhead : ∀ pragma ∈ strictPragmas, pragma.toList.head? ≠ some 'w' := by decide
  intro heq
  exact hhead directive hmem (heq ▸ rfl)

/-- The line that opens the loop determines the loop marker. -/
theorem loop_eq_of_loopOpening {ids others : HarnessIds}
    (h : loopOpening ids = loopOpening others) : ids.loop = others.loop :=
  Uuid.hyphenatedChars_injective (List.append_cancel_left h)

/-- The line that prints what was caught determines the fault marker. -/
theorem fault_eq_of_faultReport {ids others : HarnessIds}
    (h : faultReport ids = faultReport others) : ids.fault = others.fault := by
  have hvariable : faultVariable ids = faultVariable others :=
    List.append_cancel_left (List.append_cancel_right h)
  simp only [faultVariable, List.cons.injEq, true_and] at hvariable
  exact Uuid.simpleChars_injective hvariable

variable (source other : String) (ids otherIds : HarnessIds)

/-- **The lines tell the markers and the program.**  The closing lines are cancelled at the end, the
directive, if any, and the opening of the loop at the head. -/
theorem eq_of_lines_eq (h : (ofSource source ids).lines = (ofSource other otherIds).lines) :
    ids.loop = otherIds.loop ∧ ids.fault = otherIds.fault ∧
      scriptLines source.toList = scriptLines other.toList := by
  obtain ⟨hfront, hclosing⟩ := List.append_inj' h rfl
  have hreport : faultReport ids = faultReport otherIds := by
    simp only [closing, ofSource, List.cons.injEq] at hclosing
    exact hclosing.2.1
  have hfault := fault_eq_of_faultReport hreport
  simp only [opening, body, ofSource] at hfront
  cases hpragma : pragmaOf source with
  | none =>
      cases hother : pragmaOf other with
      | none =>
          simp only [hpragma, hother, Option.toList_none, List.map_nil, List.nil_append,
            List.cons_append, List.cons.injEq] at hfront
          exact ⟨loop_eq_of_loopOpening hfront.1, hfault, hfront.2.2.2⟩
      | some directive =>
          simp only [hpragma, hother, Option.toList_none, Option.toList_some, List.map_nil,
            List.map_cons, List.nil_append, List.cons_append, List.cons.injEq] at hfront
          exact absurd hfront.1 (loopOpening_ne_toList ids hother)
  | some directive =>
      cases hother : pragmaOf other with
      | none =>
          simp only [hpragma, hother, Option.toList_none, Option.toList_some, List.map_nil,
            List.map_cons, List.nil_append, List.cons_append, List.cons.injEq] at hfront
          exact absurd hfront.1.symm (loopOpening_ne_toList otherIds hpragma)
      | some otherDirective =>
          simp only [hpragma, hother, Option.toList_some, List.map_nil, List.map_cons,
            List.nil_append, List.cons_append, List.cons.injEq] at hfront
          exact ⟨loop_eq_of_loopOpening hfront.2.1, hfault, hfront.2.2.2.2⟩

/-- The lines of two harnesses are equal if their markers and their programs are, and only then. -/
theorem lines_eq_iff : (ofSource source ids).lines = (ofSource other otherIds).lines ↔
    ids.loop = otherIds.loop ∧ ids.fault = otherIds.fault ∧ linesOf source = linesOf other := by
  constructor
  · intro h
    obtain ⟨hloop, hfault, hbody⟩ := eq_of_lines_eq source other ids otherIds h
    exact ⟨hloop, hfault, congrArg (List.map String.ofList) hbody⟩
  · rintro ⟨hloop, hfault, hlines⟩
    obtain rfl : ids = otherIds := by
      cases ids
      cases otherIds
      exact congrArg₂ HarnessIds.mk hloop hfault
    have hbody : scriptLines source.toList = scriptLines other.toList :=
      (List.map_inj_right fun _ _ => String.ofList_injective).mp hlines
    have hpragma : pragmaOf source = pragmaOf other := by
      rw [pragmaOf_eq_head? source, pragmaOf_eq_head? other, hlines]
    simp only [lines, opening, body, closing, ofSource, hpragma, hbody]

/-- **The text of a harness tells what it was made from.**  The texts of two harnesses are equal
if their loop markers, their fault markers and the lines of their sources are, and only then.
So the directive is found in the first line of the source, and sources of the same lines make
the same text, whichever terminators divide them and whether or not the last line has one. -/
theorem render_text_eq_iff :
    (∀ (source other : String) (ids otherIds : HarnessIds),
        (ofSource source ids).render.text = (ofSource other otherIds).render.text ↔
          ids.loop = otherIds.loop ∧ ids.fault = otherIds.fault ∧ linesOf source = linesOf other) ∧
      (∀ source, pragmaOf source = (linesOf source).head?.bind pragmaOf) ∧
      ∀ (source other : String) (pieces others : List Text.Piece) (ids : HarnessIds),
        Text.IsDivision source.toList pieces → Text.IsDivision other.toList others →
          pieces.map Text.Piece.line = others.map Text.Piece.line →
            (ofSource source ids).render.text = (ofSource other ids).render.text := by
  have htexts : ∀ (source other : String) (ids otherIds : HarnessIds),
      (ofSource source ids).render.text = (ofSource other otherIds).render.text ↔
        ids.loop = otherIds.loop ∧ ids.fault = otherIds.fault ∧ linesOf source = linesOf other := by
    intro source other ids otherIds
    rw [← lines_eq_iff]
    constructor
    · intro h
      have hlines : ∀ (source : String) (ids : HarnessIds),
          scriptLines (ofSource source ids).render.text.toList = (ofSource source ids).lines :=
        fun _ _ => scriptLines_text fun _ => isClear_of_mem_pragmaOf
      rw [← hlines source ids, ← hlines other otherIds, h]
    · intro h
      rw [← String.toList_inj, toList_text, toList_text, h]
  refine ⟨htexts, pragmaOf_eq_head?, ?_⟩
  intro source other pieces others ids hpieces hothers hsame
  refine (htexts source other ids ids).mpr ⟨rfl, rfl, ?_⟩
  rw [linesOf, linesOf, hpieces.scriptLines_eq, hothers.scriptLines_eq, hsame]

end HarnessLayout

end EngineFuzz
