import EngineFuzz.Proofs.BlockLines
import EngineFuzz.Proofs.ExpressionLanguage
/-!
# Programs from their text

Nothing in the text of a program is escaped and no guard is put in parentheses of its own, and
yet the text says what the program is.  A block takes four lines because no symbol ends a line;
the guard is what its first line holds besides a fixed beginning and end, whatever quotes or
signs stand in it; and a guard is cut into symbols at its spaces because no symbol holds one.
The symbols alternate between operands and operators, since there is an operator for every join.

The way back is a decoder.  It never fails: of a text that is no program it makes something or
other.

* `Expression.ofText`, `Expression.ofText_text` — a chain from its text;
* `Program.decode` — the blocks from the text of a program;
* `SymbolPool.IsSeparable`, `SymbolPool.isSeparable_standard` — what the symbols of a pool have
  to be like;
* `Program.decode_source` — the decoder finds the blocks of every synthesized program;
* `Program.blocks_determined_by_source` — programs with the same text have the same blocks.
-/

namespace EngineFuzz

open Randomness
open Text (IsClear linesOf)

/-- The stretches of a text between its spaces. -/
def Text.cut (text : String) : List String := (text.toList.splitOn ' ').map String.ofList

/-- What a text holds besides a beginning and an end of given lengths. -/
def Text.inside (opening closing text : String) : String :=
  String.ofList ((text.toList.drop opening.length).take
    (text.length - opening.length - closing.length))

/-- The first entry of a list and every second one after it, and the entries between these. -/
def alternate {α : Type} : List α → List α × List α
  | [] => ([], [])
  | x :: xs => (x :: (alternate xs).2, (alternate xs).1)

namespace Expression

/-- The chain that a text is cut into; a text without characters is the chain without operands. -/
def ofText (text : String) : Expression :=
  if text = "" then ⟨[], []⟩ else ⟨(alternate (Text.cut text)).1, (alternate (Text.cut text)).2⟩

end Expression

namespace Program

/-- A block from each four lines, the first of them on the given line. -/
def readBlocks (line : Nat) : List String → List ConditionalBlock
  | opening :: body :: _ :: _ :: rest =>
    ⟨Expression.ofText (Text.inside "if (" r") {" opening),
      Text.inside "\tprint('" "');" body, line⟩ :: readBlocks (line + blockLines) rest
  | _ => []

/-- The blocks that the text behind the preamble is cut into. -/
def decode (text : String) : List ConditionalBlock :=
  readBlocks firstBlockLine (linesOf (String.ofList (text.toList.drop preamble.length)))

end Program

namespace Text

variable {first : String}

/-- A text without spaces is one stretch. -/
theorem cut_eq_singleton (h : ' ' ∉ first.toList) : cut first = [first] := by
  rw [cut, List.splitOn_eq_singleton h, List.map_singleton, String.ofList_toList]

/-- The first stretch ends at the first space. -/
theorem cut_append (h : ' ' ∉ first.toList) (rest : String) :
    cut (first ++ " " ++ rest) = first :: cut rest := by
  have htext : (first ++ " " ++ rest).toList = first.toList ++ ' ' :: rest.toList := by
    rw [String.toList_append, String.toList_append, List.append_assoc]
    rfl
  rw [cut, htext, List.splitOn_append_cons_self_of_not_mem h, List.map_cons,
    String.ofList_toList, cut]

/-- What stands between a beginning and an end is found by their lengths. -/
theorem inside_append (opening text closing : String) :
    inside opening closing (opening ++ text ++ closing) = text := by
  have hlength : (opening ++ text ++ closing).length - opening.length - closing.length =
      text.toList.length := by
    rw [String.length_append, String.length_append, String.length_toList]
    omega
  have hdropped : (opening ++ text ++ closing).toList.drop opening.length =
      text.toList ++ closing.toList := by
    rw [String.toList_append, String.toList_append, List.append_assoc, ← String.length_toList,
      List.drop_left]
  rw [inside, hdropped, hlength, List.take_left, String.ofList_toList]

end Text

namespace Expression

/-- Behind its first operand a chain is cut into operators and operands by turns. -/
theorem alternate_cut_textAfterFirst {first : String} {operands operators : List String}
    (hjoins : operators.length = operands.length) (hfirst : ' ' ∉ first.toList)
    (hoperands : ∀ symbol ∈ operands, ' ' ∉ symbol.toList)
    (hoperators : ∀ symbol ∈ operators, ' ' ∉ symbol.toList) :
    alternate (Text.cut (first ++ textAfterFirst operands operators)) =
      (first :: operands, operators) := by
  induction operands, operators using textAfterFirst.induct generalizing first with
  | case1 operators =>
    have hnone : operators = [] := List.length_eq_zero_iff.mp hjoins
    rw [textAfterFirst, String.append_empty, Text.cut_eq_singleton hfirst, hnone]
    rfl
  -- Operands without an operator between them could not be told apart.
  | case2 operand operands ih => cases hjoins
  | case3 operand operands operator operators ih =>
    obtain ⟨hoperand, hoperands⟩ := List.forall_mem_cons.mp hoperands
    obtain ⟨hoperator, hoperators⟩ := List.forall_mem_cons.mp hoperators
    have hrest := ih (Nat.succ.inj hjoins) hoperand hoperands hoperators
    have htext : first ++ textAfterFirst (operand :: operands) (operator :: operators) =
        first ++ " " ++ (operator ++ " " ++ (operand ++ textAfterFirst operands operators)) := by
      simp only [textAfterFirst, String.append_assoc]
    -- Each join takes two stretches, so the turns stay in step.
    rw [htext, Text.cut_append hfirst, Text.cut_append hoperator, alternate, alternate, hrest]

/-- **A chain is read back from its text,** if it has an operator for every join, no operand without
characters and no space in a symbol. -/
theorem ofText_text {e : Expression} (hjoins : e.operators.length = e.operands.length - 1)
    (hnonempty : ∀ symbol ∈ e.operands, symbol ≠ "")
    (hoperands : ∀ symbol ∈ e.operands, ' ' ∉ symbol.toList)
    (hoperators : ∀ symbol ∈ e.operators, ' ' ∉ symbol.toList) : ofText e.text = e := by
  obtain ⟨operands, operators⟩ := e
  cases operands with
  | nil =>
    have hnone : operators = [] := List.length_eq_zero_iff.mp hjoins
    rw [hnone]
    rfl
  | cons first operands =>
    obtain ⟨hfirst, hoperands⟩ := List.forall_mem_cons.mp hoperands
    have hne : first ++ textAfterFirst operands operators ≠ "" := by
      intro hempty
      exact hnonempty first List.mem_cons_self (String.append_eq_empty_iff.mp hempty).1
    have hcut := alternate_cut_textAfterFirst hjoins hfirst hoperands hoperators
    rw [text, ofText, if_neg hne, hcut]

end Expression

/-- The symbols of a pool can be told apart in a text: none is without characters and none holds
a space or a line end.  There are operators of both kinds, so that no two operands follow each
other. -/
structure SymbolPool.IsSeparable (pool : SymbolPool) : Prop where
  arithmetic : pool.arithmetic ≠ []
  comparison : pool.comparison ≠ []
  nonempty : ∀ symbol ∈ pool.symbols, symbol ≠ ""
  spaceless : ∀ symbol ∈ pool.symbols, ' ' ∉ symbol.toList
  lineless : ∀ symbol ∈ pool.symbols, IsClear symbol.toList

/-- The symbols of the standard pool can be told apart. -/
theorem SymbolPool.isSeparable_standard : SymbolPool.standard.IsSeparable where
  arithmetic := by decide
  comparison := by decide
  nonempty := by decide +kernel
  spaceless := by decide +kernel
  lineless := by decide +kernel

variable {pool : SymbolPool}

/-- A synthesized chain is read back from its text. -/
theorem Expression.ofText_text_of_synthesize (hpool : pool.IsSeparable) {shape : ExpressionShape}
    {random next : Source} {e : Expression}
    (h : (Expression.synthesize pool shape).run random = (.ok e, next)) : ofText e.text = e := by
  have hfrom : e.IsFrom pool := isFrom_of_synthesize h
  have hlanguage : e.InLanguage pool shape :=
    inLanguage_of_synthesize hpool.arithmetic hpool.comparison h
  have hjoins : e.operators.length = e.operands.length - 1 := by
    rw [hlanguage.length_operators]
    omega
  refine ofText_text hjoins (fun symbol hmem => ?_) (fun symbol hmem => ?_) (fun symbol hmem => ?_)
  · exact hpool.nonempty symbol (hfrom.operands symbol hmem).mem_symbols
  · exact hpool.spaceless symbol (hfrom.operands symbol hmem).mem_symbols
  · exact hpool.spaceless symbol (hfrom.operators symbol hmem).mem_symbols

namespace Program

/-- The guard of each block of a synthesized program is read back from its text. -/
theorem ofText_text_of_mem_blocks (hpool : pool.IsSeparable) {shape : ProgramShape}
    {random next : Source} {program : Program}
    (h : (synthesize pool shape).run random = (.ok program, next)) :
    ∀ block ∈ program.blocks, Expression.ofText block.condition.text = block.condition := by
  intro block hmem
  obtain ⟨k, hblock⟩ := List.getElem?_of_mem hmem
  obtain ⟨_, _, hcondition⟩ := (isDrawn_of_synthesize h k block hblock).condition
  exact Expression.ofText_text_of_synthesize hpool hcondition

/-- Blocks are read back from their lines, if their guards are and each stands four lines behind
the one before. -/
theorem readBlocks_flatMap_lines {line : Nat} {blocks : List ConditionalBlock}
    (hguards : ∀ block ∈ blocks, Expression.ofText block.condition.text = block.condition)
    (hlines : ∀ k block, blocks[k]? = some block → block.line = line + k * blockLines) :
    readBlocks line (blocks.flatMap ConditionalBlock.lines) = blocks := by
  induction blocks generalizing line with
  | nil => rfl
  | cons block blocks ih =>
    obtain ⟨hguard, hguards⟩ := List.forall_mem_cons.mp hguards
    have hline : block.line = line := by
      rw [hlines 0 block rfl, Nat.zero_mul, Nat.add_zero]
    have hrest : readBlocks (line + blockLines)
        (blocks.flatMap ConditionalBlock.lines) = blocks := by
      refine ih hguards fun k next hnext => ?_
      rw [hlines (k + 1) next hnext, Nat.succ_mul]
      omega
    have hlist : (block :: blocks).flatMap ConditionalBlock.lines =
        ("if (" ++ block.condition.text ++ r") {") :: ("\tprint('" ++ block.tag ++ "');") ::
          r"}" :: "" :: blocks.flatMap ConditionalBlock.lines := rfl
    rw [hlist, readBlocks, Text.inside_append, Text.inside_append, hguard, hrest, ← hline]

/-- The text behind the preamble is divided into the lines of the blocks. -/
theorem LaidOut.linesOf_drop_preamble {program : Program} (h : LaidOut pool program)
    (hpool : pool.IsSeparable) :
    linesOf (String.ofList (program.source.toList.drop preamble.length)) =
      program.blocks.flatMap ConditionalBlock.lines := by
  have hclear := h.isClear_of_mem fun symbol hmem =>
      Text.isClear_iff.mp (hpool.lineless symbol hmem)
  refine linesOf_eq_of_written ?_ hclear
  rw [String.toList_ofList, source, String.toList_append, ← String.length_toList, List.drop_left,
    toList_join_blockText]

/-- **The blocks of a synthesized program are decoded from its text.** -/
theorem decode_source (hpool : pool.IsSeparable) {shape : ProgramShape} {random next : Source}
    {program : Program} (h : (synthesize pool shape).run random = (.ok program, next)) :
    decode program.source = program.blocks := by
  have hlaid : LaidOut pool program := laidOut_of_synthesize h
  rw [decode, hlaid.linesOf_drop_preamble hpool]
  exact readBlocks_flatMap_lines (ofText_text_of_mem_blocks hpool h)
    fun k block hblock => (hlaid k block hblock).line

/-- **The text of a program determines the program.**  Two programs are synthesized from the
standard pool, from whatever shapes and random sources.  If they have the same text they have
the same blocks, with the same tags and lines and with guards of the same operands and
operators; and the blocks of each are what its text is decoded into. -/
theorem blocks_determined_by_source (shape otherShape : ProgramShape)
    (random next otherRandom otherNext : Source) (program other : Program)
    (hprogram : (synthesize .standard shape).run random = (.ok program, next))
    (hother : (synthesize .standard otherShape).run otherRandom = (.ok other, otherNext)) :
    (program.source = other.source → program.blocks = other.blocks) ∧
      decode program.source = program.blocks ∧ decode other.source = other.blocks := by
  have hdecoded : decode program.source = program.blocks :=
    decode_source SymbolPool.isSeparable_standard hprogram
  have hotherDecoded : decode other.source = other.blocks :=
    decode_source SymbolPool.isSeparable_standard hother
  refine ⟨fun hsource => ?_, hdecoded, hotherDecoded⟩
  rw [← hdecoded, hsource, hotherDecoded]

/-- Two ways to a program of which the first guard is empty and the second compares a negative
number with a string.  The shapes allow different counts, and the operands of the second guard
are picked in different orders. -/
theorem blocks_determined_by_source_twice :
    let shape : ProgramShape := ⟨.exactly 2, ⟨.empty, .empty, ⟨0, 3, by decide⟩⟩⟩
    let otherShape : ProgramShape := ⟨⟨1, 2, by decide⟩, ⟨.empty, .empty, ⟨0, 7, by decide⟩⟩⟩
    let random : Source := .listed [0, 0, 0, 0, 0, 0, 9223372036854775808, 2147483648, 3221225472,
      2147483648, 2147483648]
    let otherRandom : Source := .listed [9223372036854775808, 0, 0, 0, 0, 0, 4611686018427387904,
      3221225472, 2147483648, 0, 2147483648]
    ∃ program next other otherNext,
      (synthesize .standard shape).run random = (.ok program, next) ∧
        (synthesize .standard otherShape).run otherRandom = (.ok other, otherNext) ∧
        program.source = other.source ∧ program.blocks = other.blocks ∧
        decode program.source = program.blocks ∧
        program.blocks.map (·.condition) = [⟨[], []⟩, ⟨["-3434.239829382", "'56.7'"], [">"]⟩] := by
  intro shape otherShape random otherRandom
  let conditions : List Expression := [⟨[], []⟩, ⟨["-3434.239829382", "'56.7'"], [">"]⟩]
  let texts : List String :=
    [r"if () {" ++ "\n\tprint('Got me, 0!');\n" ++ r"}" ++ "\n\n",
      r"if (-3434.239829382 > '56.7') {" ++ "\n\tprint('Got me, 1!');\n" ++ r"}" ++ "\n\n"]
  have hblocks : (((synthesize .standard shape).run random).1.toOption.map fun program =>
      (program.blocks.map (·.condition), program.blocks.map blockText)) =
        some (conditions, texts) := by
    decide +kernel
  have hotherBlocks :
      (((synthesize .standard otherShape).run otherRandom).1.toOption.map fun other =>
      other.blocks.map blockText) = some texts := by
    decide +kernel
  rcases hrun : (synthesize .standard shape).run random with ⟨result, next⟩
  rcases hotherRun : (synthesize .standard otherShape).run otherRandom with ⟨otherResult, otherNext⟩
  rw [hrun] at hblocks
  rw [hotherRun] at hotherBlocks
  cases result with
  | error overload => cases hblocks
  | ok program =>
    cases otherResult with
    | error overload => cases hotherBlocks
    | ok other =>
      obtain ⟨hconditions, htexts⟩ := Prod.mk.inj (Option.some.inj hblocks)
      have hotherTexts : other.blocks.map blockText = texts := Option.some.inj hotherBlocks
      have hsource : program.source = other.source := by
        rw [source, source, htexts, hotherTexts]
      obtain ⟨hdetermined, hdecoded, -⟩ := blocks_determined_by_source shape otherShape random next
        otherRandom otherNext program other hrun hotherRun
      exact ⟨program, next, other, otherNext, rfl, rfl, hsource, hdetermined hsource, hdecoded,
        hconditions⟩

end Program

end EngineFuzz
