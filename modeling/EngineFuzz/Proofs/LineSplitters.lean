import EngineFuzz.Proofs.BlockLines
/-!
# Two ways of dividing a text into lines

`scriptLines` divides a text as a script engine does, at five terminators.  `newlineLines`
divides it at line feeds alone and takes a carriage return before a line feed away with it.  The
number of the line behind a text is counted in the second way, and everything that is reported
about a script in the first.

Where a text has a terminator that the second way does not know, the character stays in a line
of it, and no line of the first way holds one.  So the two differ there, whatever else the text
holds, and nowhere else: if all lines of the second way are clear, they are found one by one in
the first way too.

* `newlineLines_eq_map_feedPieces` — the second way is a cut behind every line feed;
* `forall_isClear_newlineLines_iff` — when the lines of the second way are clear;
* `scriptLines_eq_newlineLines_iff` — the texts on which the two ways agree;
* `line_divisions_agree` — and that they agree on every script that the library writes.
-/

namespace EngineFuzz

open Randomness

namespace Text

section Feeds

/-- The pieces of a text that each end with a line feed; only the last one may lack it. -/
def feedPieces : List Char → List (List Char)
  | [] => []
  | '\n' :: rest => ['\n'] :: feedPieces rest
  | c :: rest => extendFirst c (feedPieces rest)

/-- A piece without the line feed at its end, and without the carriage return before that. -/
def withoutFeed : List Char → List Char
  | [] | ['\n'] | ['\r', '\n'] => []
  | c :: rest => c :: withoutFeed rest

/-- A piece that is a line feed alone comes from a line feed at the head. -/
theorem head?_of_feedPieces {cs : List Char} {pieces : List (List Char)}
    (h : feedPieces cs = ['\n'] :: pieces) : cs.head? = some '\n' := by
  fun_cases feedPieces cs with
  | case1 => cases h
  | case2 rest => rfl
  | case3 c rest hc =>
    rw [feedPieces.eq_3 c rest hc] at h
    cases hrest : feedPieces rest with
    | nil =>
      rw [hrest] at h
      obtain ⟨hfirst, -⟩ := List.cons.inj h
      rw [List.head?_cons, (List.cons.inj hfirst).1]
    | cons piece pieces =>
      rw [hrest] at h
      obtain ⟨hfirst, -⟩ := List.cons.inj h
      rw [List.head?_cons, (List.cons.inj hfirst).1]

/-- **Division at line feeds** cuts behind every line feed and takes the ends of the pieces away. -/
theorem newlineLines_eq_map_feedPieces (cs : List Char) :
    newlineLines cs = (feedPieces cs).map withoutFeed := by
  fun_induction newlineLines cs with
  | case1 => rfl
  | case2 rest ih =>
    rw [ih]
    rfl
  | case3 rest ih =>
    rw [ih]
    rfl
  | case4 c rest hfeed hpair ih =>
    rw [ih, feedPieces.eq_3 c rest hfeed]
    cases hpieces : feedPieces rest with
    | nil =>
      have hone : withoutFeed [c] = [c] := withoutFeed.eq_4 c [] (fun hc _ => hfeed hc) (by simp)
      rw [extendFirst, List.map_nil, List.map_singleton, hone]
      rfl
    | cons piece pieces =>
      -- a carriage return is not taken away, since no line feed follows it
      have hkept : withoutFeed (c :: piece) = c :: withoutFeed piece := by
        refine withoutFeed.eq_4 c piece (fun hc _ => hfeed hc) ?_
        rintro hc rfl
        obtain ⟨after, hafter⟩ := List.head?_eq_some_iff.mp (head?_of_feedPieces hpieces)
        exact hpair after hc hafter
      rw [extendFirst, List.map_cons, List.map_cons, hkept]
      rfl

end Feeds

section Agreement

/-- A text whose lines are ended by line feeds alone, or by carriage return and line feed: it
holds no separator, and a line feed follows every carriage return. -/
structure EndsAtFeeds (cs : List Char) : Prop where
  no_separator : ∀ c ∈ cs, c ≠ '\u2028' ∧ c ≠ '\u2029'
  paired : ∀ before after, cs = before ++ '\r' :: after → after.head? = some '\n'

/-- In the empty text no line is ended. -/
theorem endsAtFeeds_nil : EndsAtFeeds [] where
  no_separator := fun _ hc => nomatch hc
  paired := fun before _ heq => by simp at heq

/-- The condition on a text is one on its first character and one on the rest. -/
theorem endsAtFeeds_cons_iff {c : Char} {cs : List Char} :
    EndsAtFeeds (c :: cs) ↔
      (c ≠ '\u2028' ∧ c ≠ '\u2029') ∧ (c = '\r' → cs.head? = some '\n') ∧ EndsAtFeeds cs := by
  constructor
  · rintro ⟨hseparator, hpaired⟩
    obtain ⟨hc, hcs⟩ := List.forall_mem_cons.mp hseparator
    refine ⟨hc, ?_, hcs, ?_⟩
    · rintro rfl
      exact hpaired [] cs rfl
    · rintro before after rfl
      exact hpaired (c :: before) after rfl
  · rintro ⟨hc, hreturn, hcs⟩
    refine ⟨List.forall_mem_cons.mpr ⟨hc, hcs.no_separator⟩, ?_⟩
    intro before after heq
    cases before with
    | nil =>
      obtain ⟨rfl, rfl⟩ := List.cons.inj heq
      exact hreturn rfl
    | cons first before => exact hcs.paired before after (List.cons.inj heq).2

/-- Nothing holds no line end. -/
theorem isClear_nil : IsClear [] := fun _ hc => nomatch hc

/-- A character in front of lines makes the first of them longer, and none of the others. -/
theorem forall_isClear_extendFirst_iff {c : Char} {lines : List (List Char)} :
    (∀ line ∈ extendFirst c lines, IsClear line) ↔
      isLineEnd c = false ∧ ∀ line ∈ lines, IsClear line := by
  cases lines with
  | nil => simp [extendFirst, IsClear]
  | cons line lines => simp only [extendFirst, List.forall_mem_cons, isClear_cons, and_assoc]

/-- A character that ends no line stands in the first line of a script. -/
theorem scriptLines_cons {c : Char} (hc : isLineEnd c = false) (cs : List Char) :
    scriptLines (c :: cs) = extendFirst c (scriptLines cs) := by
  rcases isClear_or_exists_terminates cs with hclear | ⟨line, terminator, rest, rfl, hline, hend⟩
  · rw [scriptLines_of_isClear (List.cons_ne_nil c cs) (isClear_cons.mpr ⟨hc, hclear⟩)]
    by_cases hne : cs = []
    · rw [hne, scriptLines_nil]
      rfl
    · rw [scriptLines_of_isClear hne hclear]
      rfl
  · rw [scriptLines_append hline hend, ← List.cons_append,
      scriptLines_append (isClear_cons.mpr ⟨hc, hline⟩) hend]
    rfl

/-- An empty line and its terminator at the head of a script. -/
theorem scriptLines_terminator {terminator rest : List Char} (hend : Terminates terminator rest) :
    scriptLines (terminator ++ rest) = [] :: scriptLines rest :=
  scriptLines_append isClear_nil hend

/-- **The lines between line feeds are clear** if no separator and no lone carriage return
stands in the text, and only then. -/
theorem forall_isClear_newlineLines_iff (cs : List Char) :
    (∀ line ∈ newlineLines cs, IsClear line) ↔ EndsAtFeeds cs := by
  fun_induction newlineLines cs with
  | case1 => exact iff_of_true (fun _ hline => nomatch hline) endsAtFeeds_nil
  | case2 rest ih =>
    rw [List.forall_mem_cons, ih, endsAtFeeds_cons_iff]
    simp [isClear_nil]
  | case3 rest ih =>
    rw [List.forall_mem_cons, ih, endsAtFeeds_cons_iff, endsAtFeeds_cons_iff]
    simp [isClear_nil]
  | case4 c rest hfeed hpair ih =>
    have hne : c ≠ '\n' := hfeed
    have hreturn : (c = '\r' → rest.head? = some '\n') ↔ c ≠ '\r' := by
      refine ⟨fun hhead heq => ?_, fun hne heq => absurd heq hne⟩
      obtain ⟨after, hafter⟩ := List.head?_eq_some_iff.mp (hhead heq)
      exact hpair after heq hafter
    rw [forall_isClear_extendFirst_iff, ih, endsAtFeeds_cons_iff, hreturn, isLineEnd_eq_false_iff]
    simp [hne, and_assoc, and_left_comm]

/-- Clear lines between line feeds are the lines of the script. -/
theorem newlineLines_eq_of_forall_isClear {cs : List Char}
    (h : ∀ line ∈ newlineLines cs, IsClear line) : newlineLines cs = scriptLines cs := by
  fun_induction newlineLines cs with
  | case1 => exact scriptLines_nil.symm
  | case2 rest ih =>
    rw [ih (List.forall_mem_cons.mp h).2]
    exact (scriptLines_terminator (terminates_newline rest)).symm
  | case3 rest ih =>
    have hend : Terminates ['\r', '\n'] rest := ⟨by simp [terminators], fun heq => by simp at heq⟩
    rw [ih (List.forall_mem_cons.mp h).2]
    exact (scriptLines_terminator hend).symm
  | case4 c rest hfeed hpair ih =>
    obtain ⟨hc, hrest⟩ := forall_isClear_extendFirst_iff.mp h
    rw [ih hrest, scriptLines_cons hc]

/-- **Where the two ways agree.** -/
theorem scriptLines_eq_newlineLines_iff (cs : List Char) :
    scriptLines cs = newlineLines cs ↔ EndsAtFeeds cs := by
  rw [← forall_isClear_newlineLines_iff]
  constructor
  · intro heq line hline
    exact isClear_of_mem_scriptLines (heq ▸ hline)
  · intro hclear
    exact (newlineLines_eq_of_forall_isClear hclear).symm

end Agreement

end Text

open Text (IsClear linesOf newlineLines)

/-- The scripts that the library writes: the preamble, a program from the standard tables, and
the harness of any program. -/
inductive IsEmitted : String → Prop
  | preamble : IsEmitted Program.preamble
  | program {shape : ProgramShape} {random next : Source} {program : Program}
      (h : (Program.synthesize .standard shape).run random = (.ok program, next)) :
      IsEmitted program.source
  | harness (source : String) (ids : HarnessIds) :
      IsEmitted (HarnessLayout.ofSource source ids).render.text

/-- A script that the library writes is clear lines, each ended by a line feed. -/
theorem IsEmitted.exists_written {text : String} (h : IsEmitted text) :
    ∃ lines, text.toList = Text.written lines ∧ ∀ line ∈ lines, IsClear line := by
  cases h with
  | preamble =>
    exact ⟨_, Program.toList_preamble, List.forall_mem_map.mpr Program.isClear_of_mem_preambleLines⟩
  | @program shape random next program h =>
    have hpool : ∀ symbol ∈ SymbolPool.standard.symbols, IsClear symbol.toList := by decide +kernel
    refine ⟨_, Program.toList_source program, List.forall_mem_map.mpr fun line hline => ?_⟩
    rcases List.mem_append.mp hline with hpreamble | hblocks
    · exact Program.isClear_of_mem_preambleLines line hpreamble
    · exact (Program.laidOut_of_synthesize h).isClear_of_mem
        (fun symbol hmem => Text.isClear_iff.mp (hpool symbol hmem)) line hblocks
  | harness source ids =>
    exact ⟨_, HarnessLayout.toList_text _, HarnessLayout.isClear_of_mem_lines fun _ =>
      HarnessLayout.isClear_of_mem_pragmaOf⟩

/-- **The two divisions into lines agree exactly where they should.**  A text has the same lines
for an engine and at line feeds alone if it holds no separator and a line feed follows every
carriage return in it, and only then; the lines at line feeds are the pieces of the text behind
every line feed, without their ends.  On every script that the library writes the two agree, and
so do the numbers of the line behind it; in particular the first block of a program stands
behind as many lines as an engine counts. -/
theorem line_divisions_agree :
    (∀ source : String, linesOf source = (newlineLines source.toList).map String.ofList ↔
      (∀ c ∈ source.toList, c ≠ '\u2028' ∧ c ≠ '\u2029') ∧
        ∀ before after, source.toList = before ++ '\r' :: after → after.head? = some '\n') ∧
    (∀ source : String,
      newlineLines source.toList = (Text.feedPieces source.toList).map Text.withoutFeed) ∧
    (∀ text, IsEmitted text →
      linesOf text = (newlineLines text.toList).map String.ofList ∧
        Program.lineBehind text = (linesOf text).length + 1) ∧
    Program.firstBlockLine = (linesOf Program.preamble).length + 1 := by
  have hemitted : ∀ text, IsEmitted text →
      linesOf text = (newlineLines text.toList).map String.ofList ∧
        Program.lineBehind text = (linesOf text).length + 1 := by
    intro text h
    obtain ⟨lines, hlines, hclear⟩ := h.exists_written
    have hsame : Text.scriptLines text.toList = newlineLines text.toList := by
      rw [hlines, Text.scriptLines_written hclear, Text.newlineLines_written hclear]
    rw [linesOf, hsame, List.length_map]
    exact ⟨rfl, rfl⟩
  refine ⟨fun source => ?_, fun source => Text.newlineLines_eq_map_feedPieces _, hemitted,
    (hemitted _ .preamble).2⟩
  have hlists : linesOf source = (newlineLines source.toList).map String.ofList ↔
      Text.scriptLines source.toList = newlineLines source.toList :=
    List.map_inj_right fun _ _ => String.ofList_injective
  rw [hlists, Text.scriptLines_eq_newlineLines_iff]
  exact ⟨fun h => ⟨h.no_separator, h.paired⟩, fun h => ⟨h.1, h.2⟩⟩

end EngineFuzz
