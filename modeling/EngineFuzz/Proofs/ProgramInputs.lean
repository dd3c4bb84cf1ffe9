import EngineFuzz.Proofs.BlockLines
import EngineFuzz.Proofs.HarnessScan
/-!
# Inputs of a program

A synthesized program names its inputs in its preamble, and whatever guards were drawn for its
blocks, a scan finds these inputs and no others.  A guard may hold the text of a declaration,
but it stands behind the opening of its block, and a line that begins in this way declares
nothing.  Of the four inputs of the preamble two have literals of a kind that inputs do not
have: one has a point in it and one has quotes, so that neither is a single word.

* `ConditionalBlock.parse?_of_mem_lines` — no line of a block declares anything;
* `Program.parse?_preambleLines` — which lines of the preamble are declarations;
* `Program.LaidOut.scan_source` — the scan of a program's lines, with what it draws;
* `program_declares_two_inputs` — the scan of a synthesized program.
-/

namespace EngineFuzz

open Randomness
open Text (isBlank scriptLines linesOf lineAt?)

/-- Blanks at the head of a line do not matter. -/
theorem Declaration.parse?_cons_of_isBlank {c : Char} (h : isBlank c = true) (rest : List Char) :
    parse? (c :: rest) = parse? rest := by
  simp only [parse?, List.dropWhile_cons_of_pos h]

/-- No line of a block declares anything, whatever its guard and its tag are. -/
theorem ConditionalBlock.parse?_of_mem_lines {block : ConditionalBlock} {line : String}
    (h : line ∈ block.lines) : Declaration.parse? line.toList = none := by
  simp only [lines, List.mem_cons, List.not_mem_nil, or_false] at h
  rcases h with rfl | rfl | rfl | rfl
  · simp only [String.toList_append]
    exact Declaration.parse?_eq_none_of_head _ (by decide) (by decide)
  · simp only [String.toList_append]
    refine (Declaration.parse?_cons_of_isBlank (by decide) _).trans ?_
    exact Declaration.parse?_eq_none_of_head _ (by decide) (by decide)
  · exact Declaration.parse?_eq_none_of_head _ (by decide) (by decide)
  · rfl

namespace Discovery

variable {sampling : Sampling} {before middle after : List (List Char)} {first second : List Char}
  {one other : Declaration} {declared declared' : Sample}

/-- Of two declarations among lines that declare nothing, the first is numbered and drawn first. -/
theorem scanLines_two (hbefore : ∀ line ∈ before, Declaration.parse? line = none)
    (hfirst : Declaration.parse? first = some one)
    (hdeclared : Sample.ofLiteral? one.literal = some declared)
    (hmiddle : ∀ line ∈ middle, Declaration.parse? line = none)
    (hsecond : Declaration.parse? second = some other)
    (hdeclared' : Sample.ofLiteral? other.literal = some declared')
    (hafter : ∀ line ∈ after, Declaration.parse? line = none) (number : Nat) (random : Source) :
    scanLines sampling number (before ++ first :: (middle ++ second :: after)) random =
      let drawn := sampleOf sampling declared random
      let drawn' := sampleOf sampling declared' drawn.2
      let place := number + before.length
      let here := ⟨place, String.ofList one.name, declared.kind, drawn.1⟩
      let there := ⟨place + 1 + middle.length, String.ofList other.name, declared'.kind, drawn'.1⟩
      (⟨[here, there], []⟩, drawn'.2) := by
  have hnothing : ∀ number, scanLines sampling number after = pure ⟨[], []⟩ := fun number => by
    have hlast : scanLines sampling number (after ++ []) = _ :=
      scanLines_append_left hafter number []
    simpa [scanLines] using hlast
  rw [scanLines_append_left hbefore, scanLines_cons_of_declared hfirst hdeclared,
    scanLines_append_left hmiddle]
  simp only [scanLines_cons_of_declared hsecond hdeclared', hnothing]
  rfl

end Discovery

namespace Program

/-- **What the preamble declares**, line by line: a number on the third line and a truth value
on the fifth. -/
theorem parse?_preambleLines :
    preambleLines.map (fun line => Declaration.parse? line.toList) =
      none :: none :: some ⟨"input_number_integer".toList, "5".toList⟩ :: none ::
        some ⟨"input_boolean".toList, "true".toList⟩ :: List.replicate 16 none := by
  decide +kernel

/-- Behind the fifth line of a program nothing is declared. -/
theorem parse?_of_mem_drop_lines {program : Program} {line : String}
    (h : line ∈ program.lines.drop 5) : Declaration.parse? line.toList = none := by
  have hsplit : program.lines.drop 5 =
      preambleLines.drop 5 ++ program.blocks.flatMap ConditionalBlock.lines := rfl
  rw [hsplit] at h
  rcases List.mem_append.mp h with hpreamble | hblocks
  · have hparsed := congrArg (List.drop 5) parse?_preambleLines
    rw [← List.map_drop] at hparsed
    refine List.eq_of_mem_replicate (n := 16) ?_
    have hmem := List.mem_map_of_mem (f := fun line => Declaration.parse? line.toList) hpreamble
    rw [hparsed] at hmem
    exact hmem
  · obtain ⟨block, -, hline⟩ := List.mem_flatMap.mp hblocks
    exact ConditionalBlock.parse?_of_mem_lines hline

/-- A line of a program declares something only if it is the third or the fifth. -/
theorem parse?_of_getElem?_lines {program : Program} {k : Nat} {line : String}
    (h : program.lines[k]? = some line) (hthird : k ≠ 2) (hfifth : k ≠ 4) :
    Declaration.parse? line.toList = none := by
  by_cases hpreamble : k < 5
  · have hparsed : (preambleLines.map fun line => Declaration.parse? line.toList)[k]? =
        some (Declaration.parse? line.toList) := by
      have hline : preambleLines[k]? = some line := by
        rw [← h, lines, List.getElem?_append_left (Nat.lt_of_lt_of_le hpreamble (by decide))]
      rw [List.getElem?_map, hline, Option.map_some]
    rw [parse?_preambleLines] at hparsed
    obtain rfl | rfl | rfl : k = 0 ∨ k = 1 ∨ k = 3 := by omega
    all_goals exact (Option.some.inj hparsed).symm
  · have hdropped : (program.lines.drop 5)[k - 5]? = some line := by
      rw [List.getElem?_drop, ← h]
      congr 1
      omega
    exact parse?_of_mem_drop_lines (List.mem_of_getElem? hdropped)

variable {pool : SymbolPool} {program : Program}

/-- **The scan of a laid out program** takes a number on the third line and a truth value on the
fifth, in this order. -/
theorem LaidOut.scan_source (h : LaidOut pool program)
    (hpool : ∀ symbol ∈ pool.symbols, ∀ c ∈ symbol.toList, c ∉ lineEnds) (sampling : Sampling)
    (random : Source) :
    scan sampling program.source random =
      let number := Discovery.sampleOf sampling (.integer 5) random
      let truth := Discovery.sampleOf sampling (.boolean true) number.2
      (⟨[⟨3, "input_number_integer", .integer, number.1⟩, ⟨5, "input_boolean", .boolean, truth.1⟩],
        []⟩, truth.2) := by
  have hscripted : scriptLines program.source.toList = program.lines.map String.toList := by
    rw [← h.linesOf_source hpool, linesOf, List.map_map]
    simp
  let number := "var input_number_integer = 5; // input".toList
  let truth := "var input_boolean = true; // input".toList
  let before := (preambleLines.take 2).map String.toList
  let middle := ((preambleLines.drop 3).take 1).map String.toList
  have hsplit : program.lines.map String.toList =
      before ++ number :: (middle ++ truth :: (program.lines.drop 5).map String.toList) := rfl
  have hbefore : ∀ line ∈ before, Declaration.parse? line = none := by decide
  have hnumber : Declaration.parse? number = some ⟨"input_number_integer".toList, "5".toList⟩ := by
    decide
  have hmiddle : ∀ line ∈ middle, Declaration.parse? line = none := by decide
  have htruth : Declaration.parse? truth = some ⟨"input_boolean".toList, "true".toList⟩ := by decide
  have hbehind : ∀ line ∈ (program.lines.drop 5).map String.toList,
      Declaration.parse? line = none :=
    List.forall_mem_map.mpr fun line => parse?_of_mem_drop_lines
  rw [scan, hscripted, hsplit]
  exact Discovery.scanLines_two hbefore hnumber rfl hmiddle htruth rfl hbehind 1 random

end Program

/-- **A synthesized program declares two inputs.**  Whatever pool without line ends, shape and
random source it is synthesized from, its third line declares a number and its fifth a truth
value, as the preamble has them; no other line of its text is taken for a declaration.  A scan
finds these two, with values of their types, and skips nothing, from every random source and
whether it draws values or takes the declared ones, which are five and true. -/
theorem program_declares_two_inputs (pool : SymbolPool)
    (hpool : ∀ symbol ∈ pool.symbols, ∀ c ∈ symbol.toList, c ∉ ['\n', '\r', '\u2028', '\u2029'])
    (shape : ProgramShape) (random next : Source) (program : Program)
    (hprogram : (Program.synthesize pool shape).run random = (.ok program, next)) :
    let text := program.source
    lineAt? text 3 = some "var input_number_integer = 5; // input" ∧
      lineAt? text 5 = some "var input_boolean = true; // input" ∧
      (∀ number line, lineAt? text number = some line → number ≠ 3 → number ≠ 5 →
        Declaration.parse? line.toList = none) ∧
      ∀ (sampling : Sampling) (source : Source),
        let found := scan sampling text source
        found.1.skipped = [] ∧
          found.1.inputs.map (fun input => (input.line, input.name, input.kind)) =
            [(3, "input_number_integer", .integer), (5, "input_boolean", .boolean)] ∧
          (∀ input ∈ found.1.inputs, input.sample.kind = input.kind) ∧
          (sampling = .fixed →
            found.1.inputs.map Input.sample = [.integer 5, .boolean true] ∧ found.2 = source) := by
  intro text
  have hlaid : Program.LaidOut pool program := Program.laidOut_of_synthesize hprogram
  have hlines : linesOf text = program.lines := hlaid.linesOf_source hpool
  refine ⟨?_, ?_, fun number line hline hthird hfifth => ?_, fun sampling source => ?_⟩
  · rw [Text.lineAt?_add_one, hlines]
    rfl
  · rw [Text.lineAt?_add_one, hlines]
    rfl
  · cases number with
    | zero => cases hline
    | succ k =>
      rw [Text.lineAt?_add_one, hlines] at hline
      exact Program.parse?_of_getElem?_lines hline (by omega) (by omega)
  · have hscan := hlaid.scan_source hpool sampling source
    refine ⟨?_, ?_, fun input => Discovery.kind_of_mem_scan, ?_⟩
    · rw [hscan]
    · rw [hscan]
      rfl
    · rintro rfl
      rw [hscan]
      exact ⟨rfl, rfl⟩

/-- A program whose only guard holds the text of a declaration. -/
theorem program_declares_two_inputs_quoted :
    let pool : SymbolPool := ⟨["var x = 1; // input"], [], ["true"], [], ["<"]⟩
    let shape : ProgramShape := ⟨.exactly 1, ⟨.exactly 1, .empty, .exactly 1⟩⟩
    let random : Source := .listed []
    (∀ symbol ∈ pool.symbols, ∀ c ∈ symbol.toList, c ∉ ['\n', '\r', '\u2028', '\u2029']) ∧
      (Declaration.parse? "var x = 1; // input".toList).isSome = true ∧
      ∃ program next, (Program.synthesize pool shape).run random = (.ok program, next) ∧
        lineAt? program.source 22 = some r"if (true < var x = 1; // input) {" ∧
        (scan .randomized program.source random).1.inputs.map
          (fun input => (input.line, input.name)) =
          [(3, "input_number_integer"), (5, "input_boolean")] := by
  intro pool shape random
  have hpool : ∀ symbol ∈ pool.symbols, ∀ c ∈ symbol.toList,
      c ∉ ['\n', '\r', '\u2028', '\u2029'] := by
    simp [pool, SymbolPool.symbols]
  have hguards : (((Program.synthesize pool shape).run random).1.toOption.map fun program =>
      program.blocks.map (·.condition.text)) = some ["true < var x = 1; // input"] := by
    decide +kernel
  refine ⟨hpool, by decide, ?_⟩
  rcases hrun : (Program.synthesize pool shape).run random with ⟨result, next⟩
  rw [hrun] at hguards
  cases result with
  | error overload => cases hguards
  | ok program =>
    have htexts : program.blocks.map (·.condition.text) = ["true < var x = 1; // input"] :=
      Option.some.inj hguards
    obtain ⟨-, -, -, hscan⟩ := program_declares_two_inputs pool hpool shape random next program hrun
    obtain ⟨-, hinputs, -⟩ := hscan .randomized random
    refine ⟨program, next, rfl, ?_, ?_⟩
    · have hlines := (Program.laidOut_of_synthesize hrun).linesOf_source hpool
      obtain ⟨block, hblock, htext⟩ := List.map_eq_singleton_iff.mp htexts
      rw [Text.lineAt?_add_one, hlines, Program.lines, hblock, List.flatMap_singleton,
        ConditionalBlock.lines, htext]
      rfl
    · have hpairs := congrArg
        (List.map fun triple : Nat × String × InputKind => (triple.1, triple.2.1)) hinputs
      rwa [List.map_map] at hpairs

end EngineFuzz
