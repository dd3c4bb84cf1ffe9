import EngineFuzz.Input
import EngineFuzz.Proofs.HarnessLines
/-!
# Inputs of a harness

The inputs of a program may be looked for in the program or in its harness; the only difference
are the line numbers, which are greater by the offset that the harness reports.  Two facts make
it so.  No line of the template has the form of a declaration, since each begins with a
character that begins none, or is closed.  And a scan takes words from the random source at
declarations only, so that lines which are none can be put before and behind without a change to
what is drawn.

* `parse?_eq_none_of_head` — the first characters that begin no declaration;
* `scanLines_append_left`, `scanLines_append_right` — lines that declare nothing;
* `scanLines_add` — a scan that counts from elsewhere;
* `kind_of_mem_scan` — the value of an input is of the kind that its line declares;
* `scan_render` — the scan of a harness, from any state of the random source.
-/

namespace EngineFuzz

open Randomness
open Text (isBlank scriptLines linesOf lineAt?)

namespace Declaration

/-- The characters that a declaration may begin with, behind blanks. -/
def heads : List Char := ['t', 'v', 'l', 'c']

private theorem isPrefixOf?_eq_none_of_ne {a b : Char} (h : a ≠ b) (as bs : List Char) :
    (a :: as).isPrefixOf? (b :: bs) = none := by
  change (if a == b then as.isPrefixOf? bs else none) = none
  rw [if_neg (by simpa using h)]

/-- A line with another character at its head declares nothing. -/
theorem parse?_eq_none_of_head {c : Char} (rest : List Char) (hblank : isBlank c = false)
    (hhead : c ∉ heads) : parse? (c :: rest) = none := by
  simp only [heads, List.mem_cons, List.not_mem_nil, or_false, not_or] at hhead
  obtain ⟨ht, hv, hl, hc⟩ := hhead
  have hintroduction : afterIntroduction? (c :: rest) = none := by
    simp [afterIntroduction?, keywords, isPrefixOf?_eq_none_of_ne, Ne.symm ht,
      Ne.symm hv, Ne.symm hl, Ne.symm hc]
  simp [parse?, hblank, hintroduction]

end Declaration

namespace HarnessLayout

/-- The directive that is found in a source declares nothing. -/
theorem parse?_of_mem_pragmaOf {source directive : String} (h : directive ∈ pragmaOf source) :
    Declaration.parse? directive.toList = none := by
  have hmem : directive ∈ strictPragmas := List.mem_of_find?_eq_some h
  simp only [strictPragmas, List.mem_cons, List.not_mem_nil, or_false] at hmem
  rcases hmem with rfl | rfl
  · exact Declaration.parse?_eq_none_of_head _ (by decide) (by decide)
  · exact Declaration.parse?_eq_none_of_head _ (by decide) (by decide)

/-- No line before the program declares anything. -/
theorem parse?_of_mem_opening {source : String} {ids : HarnessIds} {line : List Char}
    (h : line ∈ (ofSource source ids).opening) : Declaration.parse? line = none := by
  simp only [opening, List.mem_append, List.mem_map, Option.mem_toList, List.mem_cons,
    List.not_mem_nil, or_false] at h
  rcases h with ⟨directive, hmem, rfl⟩ | rfl | rfl | rfl
  · exact parse?_of_mem_pragmaOf hmem
  · exact Declaration.parse?_eq_none_of_head _ (by decide) (by decide)
  · decide
  · rfl

/-- No line after the program declares anything. -/
theorem parse?_of_mem_closing {layout : HarnessLayout} {line : List Char}
    (h : line ∈ layout.closing) : Declaration.parse? line = none := by
  simp only [closing, List.mem_cons, List.not_mem_nil, or_false] at h
  rcases h with rfl | rfl | rfl | rfl
  · exact Declaration.parse?_eq_none_of_head _ (by decide) (by decide)
  · exact Declaration.parse?_eq_none_of_head _ (by decide) (by decide)
  · exact Declaration.parse?_eq_none_of_head _ (by decide) (by decide)
  · exact Declaration.parse?_eq_none_of_head _ (by decide) (by decide)

/-- No line outside the program declares anything. -/
theorem parse?_of_lineAt? {source : String} {ids : HarnessIds} {number : Nat} {line : String}
    (h : lineAt? (ofSource source ids).render.text number = some line)
    (hnumber : number ≤ (ofSource source ids).render.positions.lineOffset ∨
      (ofSource source ids).render.positions.faultLine ≤ number) :
    Declaration.parse? line.toList = none := by
  have hlines : linesOf (ofSource source ids).render.text =
      (ofSource source ids).lines.map String.ofList := by
    rw [linesOf, scriptLines_text fun _ => isClear_of_mem_pragmaOf]
  rw [positions_eq] at hnumber
  cases number with
  | zero => cases h
  | succ n =>
      rw [Text.lineAt?_add_one, hlines, List.getElem?_map, Option.map_eq_some_iff] at h
      obtain ⟨chars, hchars, rfl⟩ := h
      rw [String.toList_ofList]
      rcases hnumber with hbefore | hbehind
      · rw [lines, List.append_assoc, List.getElem?_append_left hbefore] at hchars
        exact parse?_of_mem_opening (List.mem_of_getElem? hchars)
      · rw [lines, List.getElem?_append_right (by simpa using hbehind)] at hchars
        exact parse?_of_mem_closing (List.mem_of_getElem? hchars)

end HarnessLayout

namespace Discovery

/-- What a scan finds if all its lines stand further down. -/
def shifted (offset : Nat) (discovery : Discovery) : Discovery where
  inputs := discovery.inputs.map fun input => { input with line := input.line + offset }
  skipped := discovery.skipped.map fun skipped => { skipped with line := skipped.line + offset }

variable {sampling : Sampling}

/-- A line that declares nothing is passed over. -/
theorem scanLines_cons_of_none {line : List Char} (h : Declaration.parse? line = none)
    (number : Nat) (lines : List (List Char)) :
    scanLines sampling number (line :: lines) = scanLines sampling (number + 1) lines := by
  simp only [scanLines, h]

/-- A declaration of another kind is noted, and nothing is drawn for it. -/
theorem scanLines_cons_of_skipped {line : List Char} {declaration : Declaration}
    (hparse : Declaration.parse? line = some declaration)
    (hliteral : Sample.ofLiteral? declaration.literal = none)
    (number : Nat) (lines : List (List Char)) (source : Source) :
    scanLines sampling number (line :: lines) source =
      let rest := scanLines sampling (number + 1) lines source
      let here := ⟨number, String.ofList declaration.name, String.ofList declaration.literal⟩
      ({ rest.1 with skipped := here :: rest.1.skipped }, rest.2) := by
  simp only [scanLines, hparse, hliteral]
  rfl

/-- The value of an input is drawn before the lines behind it are scanned. -/
theorem scanLines_cons_of_declared {line : List Char} {declaration : Declaration}
    {declared : Sample} (hparse : Declaration.parse? line = some declaration)
    (hliteral : Sample.ofLiteral? declaration.literal = some declared)
    (number : Nat) (lines : List (List Char)) (source : Source) :
    scanLines sampling number (line :: lines) source =
      let drawn := sampleOf sampling declared source
      let rest := scanLines sampling (number + 1) lines drawn.2
      let here := ⟨number, String.ofList declaration.name, declared.kind, drawn.1⟩
      ({ rest.1 with inputs := here :: rest.1.inputs }, rest.2) := by
  simp only [scanLines, hparse, hliteral]
  rfl

/-- Lines before that declare nothing are counted and change nothing else. -/
theorem scanLines_append_left {before : List (List Char)}
    (h : ∀ line ∈ before, Declaration.parse? line = none) (number : Nat)
    (lines : List (List Char)) :
    scanLines sampling number (before ++ lines) =
      scanLines sampling (number + before.length) lines := by
  induction before generalizing number with
  | nil => rfl
  | cons line before ih =>
      obtain ⟨hline, hbefore⟩ := List.forall_mem_cons.mp h
      rw [List.cons_append, scanLines_cons_of_none hline, ih hbefore, List.length_cons]
      congr 1
      omega

/-- Lines behind that declare nothing change nothing. -/
theorem scanLines_append_right {after : List (List Char)}
    (h : ∀ line ∈ after, Declaration.parse? line = none) (number : Nat) (lines : List (List Char)) :
    scanLines sampling number (lines ++ after) = scanLines sampling number lines := by
  induction lines generalizing number with
  | nil =>
      have hall : scanLines sampling number (after ++ [])
          = scanLines sampling (number + after.length) [] := scanLines_append_left h number []
      rw [List.append_nil] at hall
      exact hall
  | cons line lines ih =>
      simp only [List.cons_append, scanLines, ih]

/-- **A scan that counts from elsewhere** finds the same at other lines and draws the same words. -/
theorem scanLines_add (offset number : Nat) (lines : List (List Char)) (source : Source) :
    scanLines sampling (number + offset) lines source =
      (((scanLines sampling number lines source).1).shifted offset,
        (scanLines sampling number lines source).2) := by
  induction lines generalizing number source with
  | nil => rfl
  | cons line lines ih =>
      have hnext : number + offset + 1 = number + 1 + offset := by omega
      cases hparse : Declaration.parse? line with
      | none =>
          rw [scanLines_cons_of_none hparse, scanLines_cons_of_none hparse, hnext]
          exact ih (number + 1) source
      | some declaration =>
          cases hliteral : Sample.ofLiteral? declaration.literal with
          | none =>
              rw [scanLines_cons_of_skipped hparse hliteral,
                scanLines_cons_of_skipped hparse hliteral, hnext, ih]
              rfl
          | some declared =>
              simp only [scanLines_cons_of_declared hparse hliteral, hnext, ih]
              rfl

/-- A value is of the declared kind, also if it is drawn. -/
theorem kind_sampleOf (sampling : Sampling) (declared : Sample) (random : Source) :
    (sampleOf sampling declared random).1.kind = declared.kind := by
  cases sampling with
  | fixed => rfl
  | randomized => cases declared <;> rfl

/-- The inputs of numbered lines have values of the kinds that are declared. -/
theorem kind_of_mem_scanLines {number : Nat} {lines : List (List Char)} {random : Source}
    {input : Input} (h : input ∈ (scanLines sampling number lines random).1.inputs) :
    input.sample.kind = input.kind := by
  induction lines generalizing number random with
  | nil => cases h
  | cons line lines ih =>
      cases hparse : Declaration.parse? line with
      | none =>
          rw [scanLines_cons_of_none hparse] at h
          exact ih h
      | some declaration =>
          cases hliteral : Sample.ofLiteral? declaration.literal with
          | none =>
              rw [scanLines_cons_of_skipped hparse hliteral] at h
              exact ih h
          | some declared =>
              rw [scanLines_cons_of_declared hparse hliteral] at h
              rcases List.mem_cons.mp h with rfl | hmem
              · exact kind_sampleOf sampling declared random
              · exact ih hmem

/-- **The value of an input is of its kind**, which is taken from the declaration before a value
is. -/
theorem kind_of_mem_scan {source : String} {random : Source} {input : Input}
    (h : input ∈ (scan sampling source random).1.inputs) : input.sample.kind = input.kind :=
  kind_of_mem_scanLines h

end Discovery

/-- **A harness declares what its program declares.**  From every state of the random source,
the scan of a harness finds the inputs of the program in their order, with their names, types
and values, and skips the declarations that are skipped in the program; all lines are greater by
the reported offset, and the random source ends in the same state.  No line of the template
declares anything. -/
theorem scan_render (source : String) (ids : HarnessIds) (sampling : Sampling) (random : Source) :
    let rendered := (HarnessLayout.ofSource source ids).render
    let positions := rendered.positions
    let found := scan sampling source random
    scan sampling rendered.text random = (found.1.shifted positions.lineOffset, found.2) ∧
      ∀ number line, lineAt? rendered.text number = some line →
        number ≤ positions.lineOffset ∨ positions.faultLine ≤ number →
          Declaration.parse? line.toList = none := by
  intro rendered positions found
  let layout := HarnessLayout.ofSource source ids
  have hpragma : ∀ directive ∈ layout.pragma, Text.IsClear directive.toList :=
    fun _ => HarnessLayout.isClear_of_mem_pragmaOf
  have hlines : scriptLines rendered.text.toList = layout.lines :=
    HarnessLayout.scriptLines_text hpragma
  have hpositions : positions = ⟨layout.pragma.toList.length + 1,
      layout.opening.length + layout.body.length + 1, layout.opening.length⟩ := layout.positions_eq
  have hscan : scan sampling rendered.text random =
      (found.1.shifted positions.lineOffset, found.2) := by
    calc scan sampling rendered.text random
        = Discovery.scanLines sampling 1 layout.lines random := by rw [scan, hlines]
      _ = Discovery.scanLines sampling (1 + layout.opening.length) layout.body random := by
          rw [HarnessLayout.lines,
            Discovery.scanLines_append_right fun _ => HarnessLayout.parse?_of_mem_closing,
            Discovery.scanLines_append_left fun _ => HarnessLayout.parse?_of_mem_opening]
      _ = _ := by
          rw [Discovery.scanLines_add, hpositions]
          rfl
  exact ⟨hscan, fun number line hline hnumber => HarnessLayout.parse?_of_lineAt? hline hnumber⟩

end EngineFuzz
