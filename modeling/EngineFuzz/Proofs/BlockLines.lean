import EngineFuzz.Program
import EngineFuzz.Proofs.ExpressionSymbols
import EngineFuzz.Proofs.HarnessPositions
/-!
# The lines of blocks

The line of a block is computed before there is any text: it is the line of the first block and
four more for every block in front.  The text is formatted afterwards.  That the two agree is a
fact about the division of the text into lines, and it needs that no symbol of a guard ends a
line.

A synthesized program is *laid out* if its blocks have the numbers, tags and guards that were
drawn for them.  Its text is then its lines, each ended by a line feed, and dividing it gives
these lines back.

* `Program.IsDrawn`, `Program.isDrawn_of_synthesize` — what is drawn for each block;
* `Program.LaidOut`, `Program.laidOut_of_synthesize` — what the blocks of a synthesized program are;
* `Program.toList_source` — the text, as lines that are each ended by a line feed;
* `Program.LaidOut.linesOf_source` — the lines that the text is divided into;
* `block_lines` — every block is found at its line, in the program and in its harness.
-/

namespace EngineFuzz

open Randomness
open Text (IsClear linesOf lineAt?)

/-- What no line may hold. -/
abbrev lineEnds : List Char := ['\n', '\r', '\u2028', '\u2029']

/-- A string holds a line end if its characters do, and only then. -/
theorem Text.isClear_ofList {cs : List Char} (h : IsClear cs) :
    IsClear (String.ofList cs).toList := by
  rwa [String.toList_ofList]

/-- The four lines of a block. -/
def ConditionalBlock.lines (block : ConditionalBlock) : List String :=
  ["if (" ++ block.condition.text ++ r") {", "\tprint('" ++ block.tag ++ "');", r"}", ""]

namespace Program

section Layout

variable {pool : SymbolPool} {shape : ExpressionShape}

/-- A block that stands behind `index` others, with a guard from a pool. -/
structure Stands (pool : SymbolPool) (index : Nat) (block : ConditionalBlock) : Prop where
  condition : block.condition.IsFrom pool
  tag : block.tag = tagOf index
  line : block.line = firstBlockLine + index * blockLines

/-- Every block stands behind as many others as its place says. -/
def LaidOut (pool : SymbolPool) (program : Program) : Prop :=
  ∀ k block, program.blocks[k]? = some block → Stands pool k block

/-- What is drawn for a block: a guard of its own, and the tag and line of its index. -/
structure IsDrawn (pool : SymbolPool) (shape : ExpressionShape) (index : Nat)
    (block : ConditionalBlock) : Prop where
  condition : ∃ random next,
    (Expression.synthesize pool shape).run random = (.ok block.condition, next)
  tag : block.tag = tagOf index
  line : block.line = firstBlockLine + index * blockLines

/-- Blocks are drawn one by one, numbered from the given index on. -/
theorem isDrawn_of_drawBlocks {index count : Nat} {random next : Source}
    {blocks : List ConditionalBlock}
    (h : (drawBlocks pool shape index count).run random = (.ok blocks, next)) :
    ∀ k block, blocks[k]? = some block → IsDrawn pool shape (index + k) block := by
  induction count generalizing index random next blocks with
  | zero =>
    have hblocks : [] = blocks := Except.ok.inj (Prod.mk.inj h).1
    intro k block hblock
    rw [← hblocks] at hblock
    cases hblock
  | succ count ih =>
    obtain ⟨condition, middle, hcondition, h⟩ := Synthesis.run_bind_eq_ok_iff.mp h
    obtain ⟨rest, after, hrest, h⟩ := Synthesis.run_bind_eq_ok_iff.mp h
    have hblocks : ⟨condition, tagOf index, firstBlockLine + index * blockLines⟩ :: rest = blocks :=
      Except.ok.inj (Prod.mk.inj h).1
    intro k block hblock
    rw [← hblocks] at hblock
    cases k with
    | zero =>
      rw [← Option.some.inj hblock]
      exact ⟨⟨random, middle, hcondition⟩, rfl, rfl⟩
    | succ k =>
      have hdrawn := ih hrest k block hblock
      have hindex : index + 1 + k = index + (k + 1) := by omega
      rw [hindex] at hdrawn
      exact hdrawn

/-- The blocks of a synthesized program are numbered from nought. -/
theorem isDrawn_of_synthesize {shape : ProgramShape} {random next : Source} {program : Program}
    (h : (synthesize pool shape).run random = (.ok program, next)) :
    ∀ k block, program.blocks[k]? = some block → IsDrawn pool shape.guardShape k block := by
  obtain ⟨count, _, -, h⟩ := Synthesis.run_bind_eq_ok_iff.mp h
  obtain ⟨_, _, -, h⟩ := Synthesis.run_bind_eq_ok_iff.mp h
  obtain ⟨blocks, _, hblocks, h⟩ := Synthesis.run_bind_eq_ok_iff.mp h
  have hprogram : ⟨blocks⟩ = program := Except.ok.inj (Prod.mk.inj h).1
  intro k block hblock
  rw [← hprogram] at hblock
  have hdrawn := isDrawn_of_drawBlocks hblocks k block hblock
  rwa [Nat.zero_add] at hdrawn

/-- The blocks of a synthesized program stand where their numbers say. -/
theorem laidOut_of_synthesize {shape : ProgramShape} {random next : Source} {program : Program}
    (h : (synthesize pool shape).run random = (.ok program, next)) : LaidOut pool program := by
  intro k block hblock
  obtain ⟨⟨_, _, hcondition⟩, htag, hline⟩ := isDrawn_of_synthesize h k block hblock
  exact ⟨Expression.isFrom_of_synthesize hcondition, htag, hline⟩

end Layout

section Lines

/-- The lines of a program: those of the preamble and those of each block. -/
def lines (program : Program) : List String :=
  preambleLines ++ program.blocks.flatMap ConditionalBlock.lines

/-- The text of a block is its four lines, each ended by a line feed. -/
theorem toList_blockText (block : ConditionalBlock) :
    (blockText block).toList = Text.written (block.lines.map String.toList) := by
  simp [blockText, ConditionalBlock.lines, Text.written]

/-- The preamble is its lines, each ended by a line feed. -/
theorem toList_preamble : preamble.toList = Text.written (preambleLines.map String.toList) := by
  simp only [preamble, Text.written, String.toList_join, List.flatMap_map, String.toList_append]
  rfl

/-- The text behind the preamble is the lines of the blocks, each ended by a line feed. -/
theorem toList_join_blockText (blocks : List ConditionalBlock) :
    (String.join (blocks.map blockText)).toList =
      Text.written ((blocks.flatMap ConditionalBlock.lines).map String.toList) := by
  simp only [String.toList_join, List.flatMap_map, toList_blockText, Text.written,
    List.map_flatMap, List.flatMap_assoc]

/-- The text of a program is its lines, each ended by a line feed. -/
theorem toList_source (program : Program) :
    program.source.toList = Text.written (program.lines.map String.toList) := by
  rw [source, String.toList_append, toList_preamble, toList_join_blockText, lines, List.map_append]
  simp only [Text.written, List.flatMap_append]

/-- No line of the preamble holds a line end. -/
theorem isClear_of_mem_preambleLines : ∀ line ∈ preambleLines, IsClear line.toList := by
  simp only [preambleLines, List.forall_mem_cons]
  refine ⟨?_, ?_, ?_, ?_, ?_, ?_, ?_, ?_, ?_, ?_, ?_, ?_, ?_, ?_, ?_, ?_, ?_, ?_, ?_, ?_, ?_,
    List.forall_mem_nil _⟩
  all_goals
    apply Text.isClear_ofList
    decide +kernel

/-- The line behind lines that are each ended by a line feed has the next number. -/
theorem lineBehind_eq {text : String} {lines : List (List Char)}
    (htext : text.toList = Text.written lines) (hclear : ∀ line ∈ lines, IsClear line) :
    lineBehind text = lines.length + 1 := by
  rw [lineBehind, htext, Text.newlineLines_written hclear]

/-- The first block follows the lines of the preamble. -/
theorem firstBlockLine_eq : firstBlockLine = preambleLines.length + 1 := by
  have hclear : ∀ line ∈ preambleLines.map String.toList, IsClear line :=
    List.forall_mem_map.mpr isClear_of_mem_preambleLines
  have hbehind : lineBehind preamble = (preambleLines.map String.toList).length + 1 :=
    lineBehind_eq toList_preamble hclear
  rw [List.length_map] at hbehind
  exact hbehind

/-- A tag holds the digits of its number. -/
theorem toList_tagOf (index : Nat) :
    (tagOf index).toList = "Got me, ".toList ++ Nat.toDigits 10 index ++ "!".toList := by
  have hjoined : tagOf index = "Got me, " ++ Nat.repr index ++ "!" := rfl
  rw [hjoined, String.toList_append, String.toList_append, Nat.toList_repr]

/-- A tag holds no line end. -/
theorem isClear_tagOf (index : Nat) : IsClear (tagOf index).toList := by
  have hdigits : IsClear (Nat.toDigits 10 index) := by
    intro c hc
    have hdigit : c.isDigit = true := Nat.isDigit_of_mem_toDigits (by decide) (by decide) hc
    cases hend : Text.isLineEnd c with
    | false => rfl
    | true =>
      simp only [Text.isLineEnd, Bool.or_eq_true, decide_eq_true_eq] at hend
      rcases hend with ((rfl | rfl) | rfl) | rfl <;> exact absurd hdigit (by decide)
  rw [toList_tagOf, Text.isClear_append, Text.isClear_append]
  exact ⟨⟨by decide, hdigits⟩, by decide⟩

variable {pool : SymbolPool} {program : Program}

/-- No line of a block holds a line end, if no symbol of its pool does. -/
theorem Stands.isClear_lines {index : Nat} {block : ConditionalBlock} (h : Stands pool index block)
    (hpool : ∀ symbol ∈ pool.symbols, ∀ c ∈ symbol.toList, c ∉ lineEnds) :
    ∀ line ∈ block.lines, IsClear line.toList := by
  have hsymbols : ∀ symbol ∈ pool.symbols, ∀ c ∈ symbol.toList, Text.isLineEnd c = false :=
    fun symbol hmem => Text.isClear_iff.mpr (hpool symbol hmem)
  have hspace : Text.isLineEnd ' ' = false := rfl
  have hcondition : IsClear block.condition.text.toList :=
    Expression.IsFrom.forall_mem_text hspace hsymbols h.condition
  have htag : IsClear block.tag.toList := h.tag ▸ isClear_tagOf index
  intro line hline
  simp only [ConditionalBlock.lines, List.mem_cons, List.not_mem_nil, or_false] at hline
  rcases hline with rfl | rfl | rfl | rfl
  · simp only [String.toList_append, Text.isClear_append]
    exact ⟨⟨by decide, hcondition⟩, by decide⟩
  · simp only [String.toList_append, Text.isClear_append]
    exact ⟨⟨by decide, htag⟩, by decide⟩
  · decide
  · decide

/-- No line of a block of a laid out program holds a line end. -/
theorem LaidOut.isClear_of_mem (h : LaidOut pool program)
    (hpool : ∀ symbol ∈ pool.symbols, ∀ c ∈ symbol.toList, c ∉ lineEnds) :
    ∀ line ∈ program.blocks.flatMap ConditionalBlock.lines, IsClear line.toList := by
  intro line hmem
  obtain ⟨block, hblock, hline⟩ := List.mem_flatMap.mp hmem
  obtain ⟨k, hk⟩ := List.getElem?_of_mem hblock
  exact (h k block hk).isClear_lines hpool line hline

/-- Clear lines that are each ended by a line feed are what a text is divided into. -/
theorem linesOf_eq_of_written {text : String} {lines : List String}
    (htext : text.toList = Text.written (lines.map String.toList))
    (hclear : ∀ line ∈ lines, IsClear line.toList) : linesOf text = lines := by
  rw [linesOf, htext, Text.scriptLines_written (List.forall_mem_map.mpr hclear)]
  simp

/-- **The text of a laid out program is divided into its lines.** -/
theorem LaidOut.linesOf_source (h : LaidOut pool program)
    (hpool : ∀ symbol ∈ pool.symbols, ∀ c ∈ symbol.toList, c ∉ lineEnds) :
    linesOf program.source = program.lines := by
  refine linesOf_eq_of_written (toList_source program) fun line hline => ?_
  rcases List.mem_append.mp hline with hpreamble | hblocks
  · exact isClear_of_mem_preambleLines line hpreamble
  · exact h.isClear_of_mem hpool line hblocks

/-- Blocks take four lines each. -/
theorem length_flatMap_lines (blocks : List ConditionalBlock) :
    (blocks.flatMap ConditionalBlock.lines).length = 4 * blocks.length := by
  induction blocks with
  | nil => rfl
  | cons block blocks ih =>
    rw [List.flatMap_cons, List.length_append, ih, List.length_cons]
    have hfour : block.lines.length = 4 := rfl
    omega

/-- The lines of the block with a given number stand behind four lines for every block before it. -/
theorem getElem?_flatMap_lines {blocks : List ConditionalBlock} {k : Nat} {block : ConditionalBlock}
    (hblock : blocks[k]? = some block) {j : Nat} (hj : j < 4) :
    (blocks.flatMap ConditionalBlock.lines)[4 * k + j]? = block.lines[j]? := by
  induction blocks generalizing k with
  | nil => cases hblock
  | cons first blocks ih =>
    have hfour : first.lines.length = 4 := rfl
    rw [List.flatMap_cons]
    cases k with
    | zero =>
      rw [← Option.some.inj hblock, Nat.mul_zero, Nat.zero_add,
        List.getElem?_append_left (by omega)]
    | succ k =>
      rw [List.getElem?_append_right (by omega), hfour, ← ih hblock]
      congr 1
      omega

/-- A line of a block is found in the text behind the preamble and the blocks before it. -/
theorem LaidOut.lineAt?_source (h : LaidOut pool program)
    (hpool : ∀ symbol ∈ pool.symbols, ∀ c ∈ symbol.toList, c ∉ lineEnds) {k : Nat}
    {block : ConditionalBlock} (hblock : program.blocks[k]? = some block) {j : Nat} (hj : j < 4) :
    lineAt? program.source (block.line + j) = block.lines[j]? := by
  have hline : block.line + j = preambleLines.length + (4 * k + j) + 1 := by
    rw [(h k block hblock).line, firstBlockLine_eq, blockLines]
    omega
  rw [hline, Text.lineAt?_add_one, h.linesOf_source hpool, lines,
    List.getElem?_append_right (Nat.le_add_right _ _), Nat.add_sub_cancel_left,
    getElem?_flatMap_lines hblock hj]

/-- The text has the lines of the preamble and four for each block. -/
theorem LaidOut.length_linesOf_source (h : LaidOut pool program)
    (hpool : ∀ symbol ∈ pool.symbols, ∀ c ∈ symbol.toList, c ∉ lineEnds) :
    (linesOf program.source).length = preambleLines.length + 4 * program.blocks.length := by
  rw [h.linesOf_source hpool, lines, List.length_append, length_flatMap_lines]

end Lines

end Program

/-- **Every block is found at its line.**  Whatever pool without line ends, shape and random
source a program is synthesized from, its text has four lines for each block behind the
preamble.  The block with the 0-based number `k` has the line of the first block and `4 * k`
more, and there its four lines stand; in the harness of the program they stand at the same line
plus the reported offset, and the fault handler follows the last block. -/
theorem block_lines (pool : SymbolPool)
    (hpool : ∀ symbol ∈ pool.symbols, ∀ c ∈ symbol.toList, c ∉ ['\n', '\r', '\u2028', '\u2029'])
    (shape : ProgramShape) (random next : Source) (program : Program)
    (hprogram : (Program.synthesize pool shape).run random = (.ok program, next))
    (ids : HarnessIds) :
    let text := program.source
    let blocks := program.blocks
    let harness := (HarnessLayout.ofSource text ids).render
    let offset := harness.positions.lineOffset
    (linesOf text).length = Program.firstBlockLine - 1 + 4 * blocks.length ∧
      harness.positions.faultLine = offset + Program.firstBlockLine + 4 * blocks.length ∧
      ∀ k block, blocks[k]? = some block →
        let expected :=
          ["if (" ++ block.condition.text ++ r") {", "\tprint('" ++ block.tag ++ "');",
          r"}", ""]
        block.line = Program.firstBlockLine + 4 * k ∧
          (∀ j < 4, lineAt? text (block.line + j) = expected[j]?) ∧
          ∀ j < 4, lineAt? harness.text (offset + block.line + j) = expected[j]? := by
  intro text blocks harness offset
  have hlaid : Program.LaidOut pool program := Program.laidOut_of_synthesize hprogram
  have hlength : (linesOf text).length = Program.preambleLines.length + 4 * blocks.length :=
    hlaid.length_linesOf_source hpool
  have hfirst := Program.firstBlockLine_eq
  have hfault : harness.positions.faultLine = offset + (linesOf text).length + 1 := by
    rw [HarnessLayout.faultLine_eq text ids]
  refine ⟨by omega, by omega, fun k block hblock => ?_⟩
  intro expected
  have hexpected : expected = block.lines := rfl
  have hat : ∀ j < 4, lineAt? text (block.line + j) = expected[j]? := by
    intro j hj
    rw [hexpected]
    exact hlaid.lineAt?_source hpool hblock hj
  have hline : block.line = Program.firstBlockLine + 4 * k := by
    rw [(hlaid k block hblock).line, Program.blockLines, Nat.mul_comm]
  have hk : k < blocks.length := (List.getElem?_eq_some_iff.mp hblock).1
  refine ⟨hline, hat, fun j hj => ?_⟩
  have hpos : 1 ≤ block.line + j := by omega
  have hle : block.line + j ≤ (linesOf text).length := by omega
  rw [← hat j hj, Nat.add_assoc, HarnessLayout.lineAt?_lineOffset_add text ids hpos hle]

/-- Two blocks whose guards differ, from a pool in which a symbol holds a tab. -/
theorem block_lines_twice :
    let pool : SymbolPool := ⟨["x", "y"], [], ["'\t'"], [], ["<"]⟩
    let shape : ProgramShape := ⟨.exactly 2, ⟨.exactly 1, .empty, .exactly 1⟩⟩
    let random : Source := .listed [0, 0, 0, 0, 2147483648]
    let ids : HarnessIds := ⟨⟨.replicate 16 0⟩, ⟨.replicate 16 255⟩⟩
    (∀ symbol ∈ pool.symbols, ∀ c ∈ symbol.toList, c ∉ ['\n', '\r', '\u2028', '\u2029']) ∧
      ∃ program next, (Program.synthesize pool shape).run random = (.ok program, next) ∧
        (linesOf program.source).length = 29 ∧
        lineAt? program.source 22 = some ("if ('\t' < y)" ++ r" {") ∧
        lineAt? program.source 26 = some ("if ('\t' < x)" ++ r" {") ∧
        (HarnessLayout.ofSource program.source ids).render.positions.faultLine =
          (HarnessLayout.ofSource program.source ids).render.positions.lineOffset + 30 := by
  intro pool shape random ids
  have hpool : ∀ symbol ∈ pool.symbols, ∀ c ∈ symbol.toList,
      c ∉ ['\n', '\r', '\u2028', '\u2029'] := by
    simp [pool, SymbolPool.symbols]
  have hguards : (((Program.synthesize pool shape).run random).1.toOption.map fun program =>
      program.blocks.map (·.condition.text)) = some ["'\t' < y", "'\t' < x"] := by
    decide +kernel
  have hfirst : Program.firstBlockLine = 22 := by
    rw [Program.firstBlockLine_eq]
    rfl
  refine ⟨hpool, ?_⟩
  rcases hrun : (Program.synthesize pool shape).run random with ⟨result, next⟩
  rw [hrun] at hguards
  cases result with
  | error overload => cases hguards
  | ok program =>
    have htexts : program.blocks.map (·.condition.text) = ["'\t' < y", "'\t' < x"] :=
      Option.some.inj hguards
    have hcount : program.blocks.length = 2 := by
      rw [← List.length_map (·.condition.text), htexts]
      rfl
    obtain ⟨hlength, hfault, hblocks⟩ := block_lines pool hpool shape random next program hrun ids
    have hguard : ∀ k guard, (program.blocks.map (·.condition.text))[k]? = some guard →
        lineAt? program.source (22 + 4 * k) = some ("if (" ++ guard ++ r") {") := by
      intro k guard hk
      rw [List.getElem?_map, Option.map_eq_some_iff] at hk
      obtain ⟨block, hblock, rfl⟩ := hk
      obtain ⟨hline, hat, -⟩ := hblocks k block hblock
      rw [← hfirst, ← hline]
      exact hat 0 (by decide)
    rw [htexts] at hguard
    refine ⟨program, next, rfl, ?_, hguard 0 _ rfl, hguard 1 _ rfl, ?_⟩
    · rw [hlength, hcount, hfirst]
    · rw [hfault, hcount, hfirst]

end EngineFuzz
