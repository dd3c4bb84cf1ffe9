import EngineFuzz.Harness.Layout
import EngineFuzz.Proofs.LineDivision
import EngineFuzz.Proofs.UuidText
/-!
# The lines of a harness

The writer of a harness keeps two things: the text so far and a count.  What its user needs is a
fact about the text alone, namely which line is which when the text is divided again.
`LineWriter.Holds` ties the two together: the text is made of these lines, and the count is
their number.  Every line that is written keeps it, so the positions, which are counts, are
right about the finished text.

* `write_eq` — what the writer holds when a harness is finished, and the positions it gave;
* `scriptLines_text` — the finished text is divided into the lines that were written;
* `render_lines` — the lines of a harness one by one, and the line of the program behind each of
  them.
-/

namespace EngineFuzz

open Text (IsClear isLineEnd scriptLines newlineLines linesOf lineAt?)

namespace LineWriter

/-- The writer has written these lines: its text is made of them and its count is their number. -/
structure Holds (out : LineWriter) (contents : List (List Char)) : Prop where
  text_eq : out.text.toList = Text.written contents
  count_eq : out.count = contents.length

/-- At first no line is written. -/
theorem holds_empty : empty.Holds [] where
  text_eq := rfl
  count_eq := rfl

variable {out : LineWriter} {contents : List (List Char)}

/-- The number that a line gets. -/
theorem line_number (h : out.Holds contents) (content : List Char) :
    (line content out).1 = contents.length + 1 :=
  congrArg (· + 1) h.count_eq

/-- **One line.**  The text and the count grow together. -/
theorem holds_line (h : out.Holds contents) (content : List Char) :
    (line content out).2.Holds (contents ++ [content]) where
  text_eq := by
    simp [line, h.text_eq, Text.written]
  count_eq := by
    simp [line, h.count_eq]

/-- **Many lines.**  They are appended in their order. -/
theorem holds_lines (h : out.Holds contents) (more : List (List Char)) :
    (lines more out).2.Holds (contents ++ more) := by
  induction more generalizing out contents with
  | nil =>
      rw [List.append_nil]
      exact h
  | cons content more ih =>
      have hstep := ih (holds_line h content)
      rw [List.append_assoc, List.singleton_append] at hstep
      exact hstep

end LineWriter

/-- A digit ends no line. -/
theorem isClear_hexDigits : IsClear Uuid.hexDigits := by decide

/-- The hyphenated form of an identifier holds no line ends. -/
theorem isClear_hyphenatedChars (u : Uuid) : IsClear u.hyphenatedChars := by
  intro c hc
  rcases Uuid.mem_hyphenatedChars hc with rfl | hdigit
  · rfl
  · exact isClear_hexDigits c hdigit

/-- The simple form of an identifier holds no line ends. -/
theorem isClear_simpleChars (u : Uuid) : IsClear u.simpleChars :=
  fun c hc => isClear_hexDigits c (Uuid.mem_simpleChars hc)

namespace HarnessLayout

/-- The lines before the program. -/
def opening (layout : HarnessLayout) : List (List Char) :=
  layout.pragma.toList.map String.toList ++ [loopOpening layout.ids, r"try {".toList, []]

/-- The program's own lines. -/
def body (layout : HarnessLayout) : List (List Char) := scriptLines layout.source.toList

/-- The lines after the program. -/
def closing (layout : HarnessLayout) : List (List Char) :=
  [faultOpening layout.ids, faultReport layout.ids, r"}".toList, r"}".toList]

/-- All lines of the harness. -/
def lines (layout : HarnessLayout) : List (List Char) :=
  layout.opening ++ layout.body ++ layout.closing

/-- **What is written.**  The writer ends with the lines of the harness, and the positions are the
numbers of lines in it. -/
theorem write_eq (layout : HarnessLayout) :
    ∃ out : LineWriter, out.Holds layout.lines ∧
      layout.write .empty =
        (⟨layout.pragma.toList.length + 1, layout.opening.length + layout.body.length + 1,
          layout.opening.length⟩, out) := by
  let out₀ := (LineWriter.lines (layout.pragma.toList.map String.toList) .empty).2
  let out₁ := (LineWriter.lines [loopOpening layout.ids, r"try {".toList, []] out₀).2
  let out₂ := (LineWriter.lines layout.body out₁).2
  let out₃ := (LineWriter.lines layout.closing out₂).2
  have hrun : layout.write .empty =
      (⟨(LineWriter.line (loopOpening layout.ids) out₀).1,
        (LineWriter.line (faultOpening layout.ids) out₂).1, out₁.count⟩, out₃) := rfl
  have h₀ : out₀.Holds (layout.pragma.toList.map String.toList) :=
    LineWriter.holds_lines LineWriter.holds_empty _
  have h₁ : out₁.Holds layout.opening := LineWriter.holds_lines h₀ _
  have h₂ : out₂.Holds (layout.opening ++ layout.body) := LineWriter.holds_lines h₁ _
  have h₃ : out₃.Holds layout.lines := LineWriter.holds_lines h₂ _
  refine ⟨out₃, h₃, ?_⟩
  rw [hrun, LineWriter.line_number h₀, LineWriter.line_number h₂, h₁.count_eq]
  simp only [List.length_map, List.length_append]

/-- The directive that is found in a source holds no line ends. -/
theorem isClear_of_mem_pragmaOf {source directive : String} (h : directive ∈ pragmaOf source) :
    IsClear directive.toList := by
  have hmem : directive ∈ strictPragmas := List.mem_of_find?_eq_some h
  have hall : ∀ pragma ∈ strictPragmas, IsClear pragma.toList := by decide
  exact hall directive hmem

/-- The line that opens the loop holds no line ends. -/
theorem isClear_loopOpening (ids : HarnessIds) : IsClear (loopOpening ids) := by
  unfold loopOpening
  exact Text.isClear_append.mpr ⟨by decide, isClear_hyphenatedChars _⟩

/-- The name of the variable holds no line ends. -/
theorem isClear_faultVariable (ids : HarnessIds) : IsClear (faultVariable ids) :=
  Text.isClear_cons.mpr ⟨rfl, Text.isClear_cons.mpr ⟨rfl, Text.isClear_cons.mpr
    ⟨rfl, isClear_simpleChars _⟩⟩⟩

/-- The line of the fault handler holds no line ends. -/
theorem isClear_faultOpening (ids : HarnessIds) : IsClear (faultOpening ids) := by
  unfold faultOpening
  simp only [Text.isClear_append]
  exact ⟨⟨⟨by decide, isClear_faultVariable ids⟩, by decide⟩, isClear_hyphenatedChars _⟩

/-- The line that prints what was caught holds no line ends. -/
theorem isClear_faultReport (ids : HarnessIds) : IsClear (faultReport ids) := by
  unfold faultReport
  simp only [Text.isClear_append]
  exact ⟨⟨by decide, isClear_faultVariable ids⟩, by decide⟩

/-- **No line of a harness holds a line end,** so the text is divided where the writer ended a
line. -/
theorem isClear_of_mem_lines {layout : HarnessLayout}
    (hpragma : ∀ directive ∈ layout.pragma, IsClear directive.toList) :
    ∀ line ∈ layout.lines, IsClear line := by
  intro line hline
  simp only [lines, opening, closing, List.mem_append, List.mem_map, Option.mem_toList,
    List.mem_cons, List.not_mem_nil, or_false] at hline
  rcases hline with ((⟨directive, hmem, rfl⟩ | rfl | rfl | rfl) | hbody) | rfl | rfl | rfl | rfl
  · exact hpragma directive hmem
  · exact isClear_loopOpening _
  · decide
  · decide
  · exact Text.isClear_of_mem_scriptLines hbody
  · exact isClear_faultOpening _
  · exact isClear_faultReport _
  · decide
  · decide

/-- The positions, as numbers of lines. -/
theorem positions_eq (layout : HarnessLayout) :
    layout.render.positions =
      ⟨layout.pragma.toList.length + 1, layout.opening.length + layout.body.length + 1,
        layout.opening.length⟩ := by
  obtain ⟨out, -, hrun⟩ := layout.write_eq
  simp [render, hrun]

/-- The text, as lines that are each ended by a line feed. -/
theorem toList_text (layout : HarnessLayout) :
    layout.render.text.toList = Text.written layout.lines := by
  obtain ⟨out, hout, hrun⟩ := layout.write_eq
  simpa [render, hrun] using hout.text_eq

/-- **The text is divided into the lines that were written.** -/
theorem scriptLines_text {layout : HarnessLayout}
    (hpragma : ∀ directive ∈ layout.pragma, IsClear directive.toList) :
    scriptLines layout.render.text.toList = layout.lines := by
  rw [toList_text, Text.scriptLines_written (isClear_of_mem_lines hpragma)]

/-- The line that opens the loop, with its slot filled in. -/
theorem ofList_loopOpening (ids : HarnessIds) :
    String.ofList (loopOpening ids) = r"while (true) { //" ++ ids.loop.hyphenated := by
  unfold loopOpening Uuid.hyphenated
  rw [String.ofList_append, String.ofList_toList]

/-- The name of what was caught holds the marker without its hyphens. -/
theorem ofList_faultVariable (ids : HarnessIds) : String.ofList (faultVariable ids) =
    "ex_" ++ String.ofList (ids.fault.hyphenatedChars.filter (· ≠ '-')) := by
  have hlead : "ex_" = String.ofList ['e', 'x', '_'] := by decide
  rw [Uuid.filter_hyphenatedChars, hlead, ← String.ofList_append]
  rfl

/-- The line of the fault handler, with its slots filled in. -/
theorem ofList_faultOpening (ids : HarnessIds) : String.ofList (faultOpening ids) =
    r"} catch (" ++ String.ofList (faultVariable ids) ++ r") { //" ++ ids.fault.hyphenated := by
  unfold faultOpening Uuid.hyphenated
  simp only [String.ofList_append, String.ofList_toList]

/-- The line that prints what was caught, with its slot filled in. -/
theorem ofList_faultReport (ids : HarnessIds) : String.ofList (faultReport ids) =
    "print(" ++ String.ofList (faultVariable ids) ++ ");" := by
  unfold faultReport
  simp only [String.ofList_append, String.ofList_toList]

/-- The lines of the harness as strings, with the slots of the template filled in. -/
theorem map_ofList_lines (layout : HarnessLayout) :
    let caught := "ex_" ++ String.ofList (layout.ids.fault.hyphenatedChars.filter (· ≠ '-'))
    layout.lines.map String.ofList =
      layout.pragma.toList ++ [r"while (true) { //" ++ layout.ids.loop.hyphenated, r"try {", ""] ++
        linesOf layout.source ++
        [r"} catch (" ++ caught ++ r") { //" ++ layout.ids.fault.hyphenated,
          "print(" ++ caught ++ ");", r"}", r"}"] := by
  intro caught
  have hcaught : String.ofList (faultVariable layout.ids) = caught :=
    ofList_faultVariable layout.ids
  have hpragma : (layout.pragma.toList.map String.toList).map String.ofList =
      layout.pragma.toList := by
    simp
  simp only [lines, opening, body, closing, linesOf, List.map_append, List.map_cons, List.map_nil,
    hpragma, ofList_loopOpening, ofList_faultOpening, ofList_faultReport, hcaught,
    String.ofList_toList, String.ofList_nil]

private theorem getElem?_middle {α : Type} (before middle after : List α) {k : Nat}
    (h : k < middle.length) : (before ++ middle ++ after)[before.length + k]? = middle[k]? := by
  rw [List.append_assoc, List.getElem?_append_right (by omega), Nat.add_sub_cancel_left,
    List.getElem?_append_left h]

/-- **The bookkeeping of a harness is exact.**  The text is divided into the directive, if there
is one, the three lines that open the loop, the lines of the source and the four lines that
close it, both as a script engine divides it and at line feeds alone.  The positions are the
1-based numbers of the loop line and of the handler line in that text and the number of lines
before the source, so that every line of the source is found at its own number plus that offset.
-/
theorem render_lines (source : String) (ids : HarnessIds) (pragma : Option String)
    (hpragma : pragma = pragmaOf source ∨
      ∀ directive ∈ pragma, ∀ c ∈ directive.toList, c ∉ ['\n', '\r', '\u2028', '\u2029']) :
    let layout : HarnessLayout := ⟨pragma, ids, source⟩
    let text := layout.render.text
    let positions := layout.render.positions
    let caught := "ex_" ++ String.ofList (ids.fault.hyphenatedChars.filter (· ≠ '-'))
    let loop := r"while (true) { //" ++ ids.loop.hyphenated
    let handler := r"} catch (" ++ caught ++ r") { //" ++ ids.fault.hyphenated
    let expected := pragma.toList ++ [loop, r"try {", ""] ++ linesOf source ++
      [handler, "print(" ++ caught ++ ");", r"}", r"}"]
    (∀ c ∈ text.toList, c ≠ '\r' ∧ c ≠ '\u2028' ∧ c ≠ '\u2029') ∧
      linesOf text = expected ∧
      (newlineLines text.toList).map String.ofList = expected ∧
      positions.loopLine = pragma.toList.length + 1 ∧
      lineAt? text positions.loopLine = some loop ∧
      lineAt? text positions.faultLine = some handler ∧
      positions.lineOffset = (pragma.toList ++ [loop, r"try {", ""]).length ∧
      (∀ k, 1 ≤ k → k ≤ (linesOf source).length →
        lineAt? text (positions.lineOffset + k) = lineAt? source k) ∧
      positions.faultLine = positions.lineOffset + (linesOf source).length + 1 ∧
      (linesOf text).length = positions.faultLine + 3 := by
  intro layout text positions caught loop handler expected
  have hclear : ∀ directive ∈ layout.pragma, IsClear directive.toList := by
    intro directive hmem
    rcases hpragma with rfl | hpragma
    · exact isClear_of_mem_pragmaOf hmem
    · exact Text.isClear_iff.mpr (hpragma directive hmem)
  have hlines : layout.lines.map String.ofList = expected := layout.map_ofList_lines
  have htext : linesOf text = expected := by
    rw [← hlines, linesOf, scriptLines_text hclear]
  have hfeeds : (newlineLines text.toList).map String.ofList = expected := by
    rw [← hlines, layout.toList_text, Text.newlineLines_written (isClear_of_mem_lines hclear)]
  have hbody : layout.body.length = (linesOf source).length := (List.length_map _).symm
  have hopening : layout.opening.length = pragma.toList.length + 3 := by
    simp [opening, layout]
  have hpositions : positions = ⟨pragma.toList.length + 1,
      pragma.toList.length + 3 + (linesOf source).length + 1, pragma.toList.length + 3⟩ := by
    rw [← hbody, ← hopening]
    exact layout.positions_eq
  have hnumber : ∀ n, lineAt? text (n + 1) = expected[n]? := fun n => by
    rw [Text.lineAt?_add_one, htext]
  refine ⟨?_, htext, hfeeds, ?_, ?_, ?_, ?_, ?_, ?_, ?_⟩
  · intro c hc
    have hfeed : isLineEnd c = true → c = '\n' := fun hend =>
      Text.eq_newline_of_mem_written (isClear_of_mem_lines hclear) (layout.toList_text ▸ hc) hend
    refine ⟨?_, ?_, ?_⟩ <;> rintro rfl <;> exact absurd (hfeed rfl) (by decide)
  · rw [hpositions]
  · rw [hpositions, hnumber]
    simp [expected]
  · have hlength : pragma.toList.length + 3 + (linesOf source).length =
        (pragma.toList ++ [loop, r"try {", ""] ++ linesOf source).length := by
      simp only [List.length_append, List.length_cons, List.length_nil]
    rw [hpositions, hnumber, hlength, List.getElem?_append_right (Nat.le_refl _), Nat.sub_self]
    rfl
  · rw [hpositions]
    simp
  · intro k hpos hle
    obtain ⟨j, rfl⟩ : ∃ j, k = j + 1 := ⟨k - 1, by omega⟩
    rw [hpositions, ← Nat.add_assoc, hnumber, Text.lineAt?_add_one]
    have hmiddle := getElem?_middle (pragma.toList ++ [loop, r"try {", ""]) (linesOf source)
      [handler, "print(" ++ caught ++ ");", r"}", r"}"] (k := j) (by omega)
    simpa [expected] using hmiddle
  · rw [hpositions]
  · rw [htext, hpositions]
    simp only [expected, List.length_append, List.length_cons, List.length_nil]

/-- A directive that is not in the source, before a source with a lone carriage return. -/
theorem render_lines_replaced :
    let layout : HarnessLayout :=
      ⟨some "// generated", ⟨⟨.replicate 16 0⟩, ⟨.replicate 16 255⟩⟩, "a();\rb();"⟩
    (∀ directive ∈ layout.pragma, ∀ c ∈ directive.toList, c ∉ ['\n', '\r', '\u2028', '\u2029']) ∧
      layout.render.positions.loopLine = 2 ∧ layout.render.positions.lineOffset = 4 ∧
      lineAt? layout.render.text 2 =
        some r"while (true) { //00000000-0000-0000-0000-000000000000" := by
  intro layout
  have hclear : ∀ directive ∈ layout.pragma, ∀ c ∈ directive.toList,
      c ∉ ['\n', '\r', '\u2028', '\u2029'] := by
    simp [layout]
  obtain ⟨-, -, -, hnumber, hloop, -, hoffset, -⟩ :=
    render_lines layout.source layout.ids layout.pragma (Or.inr hclear)
  have hid : layout.ids.loop.hyphenated = "00000000-0000-0000-0000-000000000000" := by decide
  have htwo : layout.render.positions.loopLine = 2 := hnumber
  refine ⟨hclear, htwo, hoffset, ?_⟩
  rw [hid, hnumber] at hloop
  exact hloop

end HarnessLayout

end EngineFuzz
