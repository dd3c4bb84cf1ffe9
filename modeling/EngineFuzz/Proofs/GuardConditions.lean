import EngineFuzz.Proofs.ConditionGrammar
import EngineFuzz.Proofs.SynthesisLimits
/-!
# Guards as conditions

The guard of a block is put between the parentheses of a condition as it is.  Its text is a
chain of operands with an operator before each one but the first, and such a chain is an
expression: up to the last operator it is a sum of products, and the last operator compares that
with an operand.  So a block is a statement under a condition, unless its guard has no operand
at all.  Then nothing stands between the parentheses, which no condition does; and that can be
if each of the three counts may be nought.

* `Expression.IsChain`, `Expression.isChain_text` — the shape of a guard's text;
* `Expression.exists_expresses` — a chain over the standard pool is an expression;
* `Program.tokens_blockText`, `Program.states_blockText` — the text of a block, read as a statement;
* `ExpressionShape.AdmitsNone` — shapes of which a guard may have no operand;
* `guards_are_conditions` — when the blocks of a program are statements, and when not.
-/

namespace EngineFuzz

open Randomness Grammar

section Pool

variable {symbol : String}

/-- The operand that tokens are, perhaps with a sign. -/
def operand? : List Token → Option Term
  | [token] => token.term?
  | [.mark sign, token] => if sign ∈ signs then token.term?.map (.signed sign) else none
  | _ => none

theorem derives_of_operand? {tokens : List Token} {term : Term} (h : operand? tokens = some term) :
    Derives operandLevel tokens term := by
  unfold operand? at h
  split at h
  · exact .operand h
  · split at h
    · next hsign =>
      obtain ⟨inner, hinner, rfl⟩ := Option.map_eq_some_iff.mp h
      exact .signed hsign (.operand hinner)
    · cases h
  · cases h

/-- Every operand of the standard pool is one of the grammar. -/
theorem exists_derives_of_isOperand (h : SymbolPool.standard.IsOperand symbol) :
    ∃ found, tokens symbol.toList = some found ∧ ∃ term, Derives operandLevel found term := by
  have hall : ∀ symbol ∈ SymbolPool.standard.inputs ++ SymbolPool.standard.constants ++
      SymbolPool.standard.literals, ((tokens symbol.toList).bind operand?).isSome = true := by
    decide +kernel
  have hmem : symbol ∈ SymbolPool.standard.inputs ++ SymbolPool.standard.constants ++
      SymbolPool.standard.literals := by
    rcases h with h | h | h <;> simp [h]
  obtain ⟨term, hterm⟩ := Option.isSome_iff_exists.mp (hall symbol hmem)
  obtain ⟨found, hfound, hoperand⟩ := Option.bind_eq_some_iff.mp hterm
  exact ⟨found, hfound, term, derives_of_operand? hoperand⟩

/-- The arithmetic operators of the standard pool are the signs of sums and products. -/
theorem tokens_of_mem_arithmetic (h : symbol ∈ SymbolPool.standard.arithmetic) :
    tokens symbol.toList = some [.mark symbol] ∧
      (symbol ∈ operatorsAt sumLevel ∨ symbol ∈ operatorsAt productLevel) := by
  have hall : ∀ symbol ∈ SymbolPool.standard.arithmetic,
      tokens symbol.toList = some [.mark symbol] ∧
      (symbol ∈ operatorsAt sumLevel ∨ symbol ∈ operatorsAt productLevel) := by
    decide +kernel
  exact hall symbol h

/-- The comparisons of the standard pool are operators of equality and relation. -/
theorem tokens_of_mem_comparison (h : symbol ∈ SymbolPool.standard.comparison) :
    tokens symbol.toList = some [.mark symbol] ∧
      (symbol ∈ operatorsAt equalityLevel ∨ symbol ∈ operatorsAt relationLevel) := by
  have hall : ∀ symbol ∈ SymbolPool.standard.comparison,
      tokens symbol.toList = some [.mark symbol] ∧
      (symbol ∈ operatorsAt equalityLevel ∨ symbol ∈ operatorsAt relationLevel) := by
    decide +kernel
  exact hall symbol h

end Pool

namespace Expression

variable {pool : SymbolPool} {shape : ExpressionShape} {e : Expression} {random next : Source}

/-- An operand, and operators with an operand behind each, with a space on both sides of them. -/
def chainText (first : String) (joined : List (String × String)) : String :=
  first ++ String.join (joined.map fun (operator, operand) => " " ++ operator ++ " " ++ operand)

/-- A text is a chain over a pool.  It has at least one operand. -/
def IsChain (pool : SymbolPool) (text : String) : Prop :=
  ∃ first joined, pool.IsOperand first ∧
    (∀ join ∈ joined, pool.IsOperator join.1 ∧ pool.IsOperand join.2) ∧
      text = chainText first joined

/-- Behind the first operand each operator stands before its operand. -/
theorem textAfterFirst_eq_join {operands operators : List String}
    (hjoins : operators.length = operands.length) :
    textAfterFirst operands operators = String.join
      ((operators.zip operands).map fun (operator, operand) => " " ++ operator ++ " " ++
        operand) := by
  induction operands, operators using textAfterFirst.induct with
  | case1 operators =>
    obtain rfl : operators = [] := List.length_eq_zero_iff.mp hjoins
    rfl
  | case2 operand operands ih => cases hjoins
  | case3 operand operands operator operators ih =>
    rw [textAfterFirst, ih (Nat.succ.inj hjoins), List.zip_cons_cons, List.map_cons,
      String.join_cons]

/-- **The text of an expression that has operands** is a chain. -/
theorem isChain_text (hfrom : e.IsFrom pool) (hlength : e.operators.length = e.operands.length - 1)
    (hne : e.operands ≠ []) : IsChain pool e.text := by
  obtain ⟨operands, operators⟩ := e
  obtain ⟨first, operands, rfl⟩ := List.exists_cons_of_ne_nil hne
  obtain ⟨hfirst, hothers⟩ := List.forall_mem_cons.mp hfrom.operands
  refine ⟨first, operators.zip operands, hfirst, fun join hjoin => ?_, ?_⟩
  · obtain ⟨hoperator, hoperand⟩ := List.of_mem_zip hjoin
    exact ⟨hfrom.operators _ hoperator, hothers _ hoperand⟩
  · exact congrArg (first ++ ·) (textAfterFirst_eq_join hlength)

/-- **A chain is an expression**, from any sum of products on. -/
theorem exists_derives_textAfterFirst {operands operators : List String}
    (hlength : operators.length = operands.length) (hjoins : Joins .standard operators)
    (hoperands : ∀ symbol ∈ operands, SymbolPool.standard.IsOperand symbol) {before : List Char}
    {found : List Token} (hbefore : tokens before = some found) (hsum : Sum found) :
    ∃ all term, tokens (before ++ (textAfterFirst operands operators).toList) = some all ∧
      Derives 0 all term := by
  induction operands, operators using textAfterFirst.induct generalizing before found with
  | case1 operators =>
    obtain ⟨term, hterm⟩ := hsum.exists_derives
    exact ⟨found, term, by rw [textAfterFirst, String.toList_empty, List.append_nil, hbefore],
      hterm.loosen (by decide) (by decide)⟩
  | case2 operand operands ih => cases hlength
  | case3 operand operands operator operators ih =>
    obtain ⟨hoperand, hoperands⟩ := List.forall_mem_cons.mp hoperands
    obtain ⟨behind, hbehind, hderives⟩ := exists_derives_of_isOperand hoperand
    have htext : before ++ (textAfterFirst (operand :: operands) (operator :: operators)).toList =
        (before ++ ' ' :: (operator.toList ++ ' ' :: operand.toList)) ++
          (textAfterFirst operands operators).toList := by
      simp [textAfterFirst]
    have hfound : tokens operator.toList = some [.mark operator] →
        tokens (before ++ ' ' :: (operator.toList ++ ' ' :: operand.toList)) =
          some (found ++ .mark operator :: behind) :=
      fun hmark => tokens_append_space hbefore (tokens_append_space hmark hbehind)
    rw [htext]
    cases operators with
    | nil =>
      -- The last operator compares all that stands before it.
      obtain ⟨hmark, hlevel⟩ := tokens_of_mem_comparison (joins_singleton.mp hjoins)
      obtain rfl : operands = [] := List.length_eq_zero_iff.mp (Nat.succ.inj hlength).symm
      obtain ⟨term, hterm⟩ := hsum.exists_compared hlevel hderives
      refine ⟨_, term, ?_, hterm⟩
      rw [textAfterFirst, String.toList_empty, List.append_nil]
      exact hfound hmark
    | cons second others =>
      obtain ⟨harithmetic, hjoins⟩ := joins_cons_cons.mp hjoins
      obtain ⟨hmark, hlevel⟩ := tokens_of_mem_arithmetic harithmetic
      exact ih (Nat.succ.inj hlength) hjoins hoperands (hfound hmark) (hsum.extend hlevel hderives)

/-- An expression of the standard pool that has operands is one of the grammar. -/
theorem exists_expresses (hfrom : e.IsFrom .standard) (hlanguage : e.InLanguage .standard shape)
    (hne : e.operands ≠ []) : ∃ term, Expresses e.text term := by
  have hlength := hlanguage.length_operators
  have hjoins := hlanguage.joins
  obtain ⟨operands, operators⟩ := e
  obtain ⟨first, operands, rfl⟩ := List.exists_cons_of_ne_nil hne
  obtain ⟨hfirst, hothers⟩ := List.forall_mem_cons.mp hfrom.operands
  obtain ⟨found, hfound, term, hterm⟩ := exists_derives_of_isOperand hfirst
  have hsum : Sum found := .inl ⟨term, hterm.loosen (by decide) (by decide)⟩
  have hcount : operators.length = operands.length := by
    rw [hlength, List.length_cons]
    omega
  obtain ⟨all, whole, hall, hwhole⟩ :=
    exists_derives_textAfterFirst hcount hjoins hothers hfound hsum
  exact ⟨whole, all, by rw [text, String.toList_append]; exact hall, hwhole⟩

end Expression

/-- A shape that allows an expression without operands: each of the three counts may be nought. -/
structure ExpressionShape.AdmitsNone (shape : ExpressionShape) : Prop where
  inputVars : shape.inputVars.min.toNat = 0
  constVars : shape.constVars.min.toNat = 0
  literals : shape.literals.min.toNat = 0

/-- An expression over the standard pool has no operand only if none of its counts has to be
more. -/
theorem Expression.admitsNone_of_operands_eq_nil {shape : ExpressionShape} {e : Expression}
    (h : e.InLanguage .standard shape) (hnone : e.operands = []) : shape.AdmitsNone := by
  obtain ⟨inputs, constants, literals, hperm, hinputs, hconstants, hliterals⟩ := h.operands
  rw [hnone, List.nil_perm, List.append_eq_nil_iff, List.append_eq_nil_iff] at hperm
  obtain ⟨⟨rfl, rfl⟩, rfl⟩ := hperm
  have hnought : ∀ {table : List String} {range : SizeRange}, table ≠ [] →
      DrawnFrom table range [] → range.min.toNat = 0 := by
    intro table range hne hdrawn
    have hcount := hdrawn.count
    rw [if_neg hne] at hcount
    exact Nat.le_zero.mp hcount.1
  exact ⟨hnought (by decide) hinputs, hnought (by decide) hconstants, hnought (by decide) hliterals⟩

/-- An expression has at most as many operands as its counts together can be. -/
theorem Expression.InLanguage.length_operands_le {pool : SymbolPool} {shape : ExpressionShape}
    {e : Expression} (h : e.InLanguage pool shape) : e.operands.length ≤
      shape.inputVars.max.toNat + shape.constVars.max.toNat + shape.literals.max.toNat := by
  obtain ⟨inputs, constants, literals, hperm, hinputs, hconstants, hliterals⟩ := h.operands
  rw [hperm.length_eq, List.length_append, List.length_append]
  exact Nat.add_le_add (Nat.add_le_add hinputs.length_le hconstants.length_le) hliterals.length_le

/-- Such a shape leads to the expression without operands by some words. -/
theorem Expression.reaches_none (pool : SymbolPool) {shape : ExpressionShape}
    (h : shape.AdmitsNone) : Draw.Reaches (synthesize pool shape).run (.ok ⟨[], []⟩) := by
  have hnought : ∀ {range : SizeRange}, range.min.toNat = 0 →
      Draw.Reaches (liftM range.sample : Synthesis Nat).run (.ok 0) := by
    intro range hmin
    exact Synthesis.reaches_liftM (SizeRange.reaches_sample (Nat.le_of_eq hmin) (Nat.zero_le _))
  have hchain : Draw.Reaches (drawChain pool 0 0 0) ⟨[], []⟩ := Draw.reaches_pure _
  exact Synthesis.reaches_bind (hnought h.inputVars) (Synthesis.reaches_bind (hnought h.constVars)
    (Synthesis.reaches_bind (hnought h.literals) (Synthesis.reaches_liftM hchain)))

namespace Program

variable {pool : SymbolPool} {shape : ProgramShape}

/-- The digits of a number and what stands around them can be put between quotes. -/
theorem isPlain_tagOf (index : Nat) : IsPlain (tagOf index).toList := by
  have hdigits : IsPlain (Nat.toDigits 10 index) := by
    intro c hc hmem
    have hdigit : c.isDigit = true := Nat.isDigit_of_mem_toDigits (by decide) (by decide) hc
    simp only [List.mem_cons, List.not_mem_nil, or_false] at hmem
    rcases hmem with rfl | rfl | rfl | rfl <;> exact absurd hdigit (by decide)
  rw [toList_tagOf, isPlain_append, isPlain_append]
  exact ⟨⟨by decide, hdigits⟩, by decide⟩

/-- The tokens of the text of a block, from those of its guard. -/
theorem tokens_blockText {block : ConditionalBlock} {condition : List Token}
    (hcondition : tokens block.condition.text.toList = some condition)
    (htag : IsPlain block.tag.toList) :
    tokens (blockText block).toList = some (.name "if" :: .mark "(" :: (condition ++ .mark ")" ::
      .mark r"{" :: ([.name "print", .mark "(", .text block.tag, .mark ")", .mark ";"] ++
        [.mark r"}"]))) := by
  let opening : List Char := (r" {" ++ "\n\tprint(").toList
  let closing : List Char := (");\n" ++ r"}" ++ "\n\n").toList
  have htext : (blockText block).toList = "if".toList ++ ' ' :: '(' ::
      (block.condition.text.toList ++
      ')' :: (opening ++ '\'' :: (block.tag.toList ++ '\'' :: closing))) := by
    simp [blockText, opening, closing]
  -- The text is cut at the parentheses of the condition and at the quotes of the tag.
  have hend : tokens ('\'' :: (block.tag.toList ++ '\'' :: closing)) =
      some [.text block.tag, .mark ")", .mark ";", .mark r"}"] := by
    have hclosing : tokens closing = some [.mark ")", .mark ";", .mark r"}"] := by
      decide +kernel
    rw [tokens_quoted htag, hclosing, String.ofList_toList]
    rfl
  have hbody : tokens (opening ++ '\'' :: (block.tag.toList ++ '\'' :: closing)) =
      some [.mark r"{", .name "print", .mark "(", .text block.tag, .mark ")", .mark ";",
        .mark r"}"] := by
    have hopening : tokens opening = some [.mark r"{", .name "print", .mark "("] := by
      decide +kernel
    rw [tokens_append separates_quote hopening, hend]
    rfl
  have hguarded : tokens ('(' :: (block.condition.text.toList ++ ')' ::
      (opening ++ '\'' :: (block.tag.toList ++ '\'' :: closing)))) =
      some (.mark "(" :: (condition ++ [.mark ")", .mark r"{", .name "print", .mark "(",
        .text block.tag, .mark ")", .mark ";", .mark r"}"])) := by
    rw [tokens_cons_parenthesis (.inl rfl), tokens_append separates_closing hcondition,
      tokens_cons_parenthesis (.inr rfl), hbody]
    rfl
  have hif : tokens "if".toList = some [.name "if"] := by decide +kernel
  rw [htext, tokens_append_space hif hguarded]
  rfl

/-- **The text of a block is a statement** under the condition that its guard is. -/
theorem states_blockText {block : ConditionalBlock} {term : Term}
    (hguard : Expresses block.condition.text term) (htag : IsPlain block.tag.toList) :
    States (blockText block) (.conditional term (.call "print" (.text block.tag))) := by
  obtain ⟨condition, hcondition, hderives⟩ := hguard
  have hargument : Derives 0 [.text block.tag] (.text block.tag) :=
    (Derives.operand rfl).loosen (by decide) (by decide)
  exact ⟨_, tokens_blockText hcondition htag, .conditional hderives (.call (by decide) hargument)⟩

/-- Without a guard the text of a block is no statement. -/
theorem not_states_blockText {block : ConditionalBlock} (hguard : block.condition.text = "")
    (htag : IsPlain block.tag.toList) (statement : Statement) :
    ¬States (blockText block) statement := by
  rintro ⟨found, hfound, hperforms⟩
  have hnone : tokens block.condition.text.toList = some [] := by
    rw [hguard]
    rfl
  rw [tokens_blockText hnone htag] at hfound
  obtain rfl := Option.some.inj hfound
  exact not_performs_of_no_condition hperforms

/-- What a guard can be, all guards can be. -/
theorem exists_reaches_drawBlocks {guardShape : ExpressionShape} {e : Expression}
    (h : Draw.Reaches (Expression.synthesize pool guardShape).run (.ok e)) (index count : Nat) :
    ∃ blocks : List ConditionalBlock, blocks.length = count ∧
      (∀ block ∈ blocks, block.condition = e) ∧
      Draw.Reaches (drawBlocks pool guardShape index count).run (.ok blocks) := by
  induction count generalizing index with
  | zero => exact ⟨[], rfl, fun _ hmem => (nomatch hmem), Draw.reaches_pure _⟩
  | succ count ih =>
    obtain ⟨blocks, hlength, hblocks, hreaches⟩ := ih (index + 1)
    refine ⟨⟨e, tagOf index, firstBlockLine + index * blockLines⟩ :: blocks,
      congrArg (· + 1) hlength, List.forall_mem_cons.mpr ⟨rfl, hblocks⟩, ?_⟩
    exact Synthesis.reaches_bind h (Synthesis.reaches_bind hreaches (Draw.reaches_pure _))

/-- What a guard can be, all guards of a program can be, if its shape allows blocks and those
that it asks for can be held. -/
theorem exists_reaches_synthesize {e : Expression}
    (h : Draw.Reaches (Expression.synthesize pool shape.guardShape).run (.ok e))
    (hsome : 0 < shape.blocks.max.toNat) (hheld : CanHold 80 (max 1 shape.blocks.min.toNat)) :
    ∃ program : Program, program.blocks ≠ [] ∧ (∀ block ∈ program.blocks, block.condition = e) ∧
      Draw.Reaches (synthesize pool shape).run (.ok program) := by
  have hordered : shape.blocks.min.toNat ≤ shape.blocks.max.toNat :=
    UInt64.le_iff_toNat_le.mp shape.blocks.ordered
  obtain ⟨blocks, hlength, hblocks, hreaches⟩ :=
    exists_reaches_drawBlocks h 0 (max 1 shape.blocks.min.toNat)
  have hcount : Draw.Reaches (liftM shape.blocks.sample : Synthesis Nat).run
      (.ok (max 1 shape.blocks.min.toNat)) :=
    Synthesis.reaches_liftM (SizeRange.reaches_sample (by omega) (by omega))
  have hchecked : Draw.Reaches (ExceptT.mk (pure (checkStorage 80 (max 1 shape.blocks.min.toNat))) :
      Synthesis Unit).run (.ok ()) := by
    rw [checkStorage_eq_ok_iff.mpr hheld]
    exact Draw.reaches_pure _
  refine ⟨⟨blocks⟩, fun hnone => ?_, hblocks, Synthesis.reaches_bind hcount
    (Synthesis.reaches_bind hchecked (Synthesis.reaches_bind hreaches (Draw.reaches_pure _)))⟩
  have hnone : blocks.length = 0 := List.length_eq_zero_iff.mpr hnone
  omega

end Program

/-- **The guards of programs.**  In every program from the standard pool the guard of a block is
a chain of an operand and operators with an operand behind each, which is an expression, and the
text of the block is a statement under that condition.  Else the guard has no text, the text of
the block is no statement, and none of the three counts of operands has to be more than nought.
If that is so, and there can be a block, then some words lead to a program of blocks without
guards. -/
theorem guards_are_conditions (config : Config) :
    (∀ random program next,
      (Program.synthesize .standard config.shape).run random = (.ok program, next) →
        ∀ block ∈ program.blocks,
          (Expression.IsChain .standard block.condition.text ∧
            ∃ term, Expresses block.condition.text term ∧ States (Program.blockText block)
              (.conditional term (.call "print" (.text block.tag)))) ∨
          (config.shape.guardShape.AdmitsNone ∧ block.condition.text = "" ∧
            (∀ term, ¬Expresses block.condition.text term) ∧
            ∀ statement, ¬States (Program.blockText block) statement)) ∧
    (config.shape.guardShape.AdmitsNone → 0 < config.shape.blocks.max.toNat →
      CanHold 80 (max 1 config.shape.blocks.min.toNat) →
        ∃ program words, program.blocks ≠ [] ∧
          (∀ block ∈ program.blocks, block.condition.text = "") ∧
          ∀ rest, (Program.synthesize .standard config.shape).run (.listed (words ++ rest)) =
            (.ok program, .listed rest)) := by
  constructor
  · intro random program next h block hmem
    obtain ⟨k, hk⟩ := List.getElem?_of_mem hmem
    obtain ⟨⟨source, after, hcondition⟩, htag, -⟩ := Program.isDrawn_of_synthesize h k block hk
    have hplain : IsPlain block.tag.toList := htag ▸ Program.isPlain_tagOf k
    have hfrom := Expression.isFrom_of_synthesize hcondition
    have hlanguage := Expression.inLanguage_of_synthesize (by decide) (by decide) hcondition
    by_cases hnone : block.condition.operands = []
    · have htext : block.condition.text = "" := by
        rw [Expression.text, hnone]
      refine .inr ⟨Expression.admitsNone_of_operands_eq_nil hlanguage hnone, htext, ?_, ?_⟩
      · rw [htext]
        exact not_expresses_empty
      · exact Program.not_states_blockText htext hplain
    · have hlength : block.condition.operators.length = block.condition.operands.length - 1 := by
        rw [hlanguage.length_operators]
        omega
      obtain ⟨term, hterm⟩ := Expression.exists_expresses hfrom hlanguage hnone
      exact .inl ⟨Expression.isChain_text hfrom hlength hnone, term, hterm,
        Program.states_blockText hterm hplain⟩
  · intro hnone hsome hheld
    obtain ⟨program, hne, hblocks, words, hwords⟩ := Program.exists_reaches_synthesize
      (Expression.reaches_none .standard hnone) hsome hheld
    refine ⟨program, words, hne, fun block hmem => ?_, hwords⟩
    rw [hblocks block hmem]
    rfl

/-- A shape of up to two literals: a guard that compares a number below nought with a text, and
a program whose guard has no operand. -/
theorem guards_are_conditions_literals :
    let config : Config :=
      ⟨.ofString "p.js", none, ⟨.exactly 1, ⟨.empty, .empty, ⟨0, 2, by decide⟩⟩⟩, .randomized,
        Config.defaultEngine⟩
    let random : Source :=
      .listed [0, 0, 0, 13000000000000000000, 1230000000, 2401000000, 2147483648,
      2147483648]
    (∃ program next,
      (Program.synthesize .standard config.shape).run random = (.ok program, next) ∧
        program.blocks.map (·.condition.text) = ["-45 > 'abra'"] ∧ ∀ block ∈ program.blocks, ∃ term,
          States (Program.blockText block) (.conditional term (.call "print" (.text block.tag)))) ∧
      ∃ program words, program.blocks ≠ [] ∧ (∀ block ∈ program.blocks, block.condition.text = "") ∧
        ∀ rest, (Program.synthesize .standard config.shape).run (.listed (words ++ rest)) =
          (.ok program, .listed rest) := by
  intro config random
  obtain ⟨hguards, hnone⟩ := guards_are_conditions config
  have htexts :
      (((Program.synthesize .standard config.shape).run random).1.toOption.map fun program =>
      program.blocks.map (·.condition.text)) = some ["-45 > 'abra'"] := by
    decide +kernel
  refine ⟨?_, hnone ⟨rfl, rfl, rfl⟩ (by decide) (by unfold CanHold; decide)⟩
  rcases hrun : (Program.synthesize .standard config.shape).run random with ⟨result, next⟩
  rw [hrun] at htexts
  cases result with
  | error overload => cases htexts
  | ok program =>
    have htexts : program.blocks.map (·.condition.text) = ["-45 > 'abra'"] := Option.some.inj htexts
    refine ⟨program, next, rfl, htexts, fun block hmem => ?_⟩
    rcases hguards random program next hrun block hmem with ⟨-, term, -, hstates⟩ | ⟨-, hempty, -⟩
    · exact ⟨term, hstates⟩
    · have htext : block.condition.text ∈ ["-45 > 'abra'"] := htexts ▸ List.mem_map_of_mem hmem
      rw [hempty] at htext
      exact absurd htext (by decide)

/-- A configuration that is accepted, and of which no program has a statement for its block. -/
theorem accepted_guards_without_operands :
    ∃ config, Config.parse ("program_path = 'p.js'\n[generator]\nblocks = [1, 1]\n" ++
        "input_vars = [0, 0]\nconst_vars = [0, 0]\nliterals = [0, 0]") = .ok config ∧
      ∀ random, ∃ program next block,
        (Program.synthesize .standard config.shape).run random = (.ok program, next) ∧
          program.blocks = [block] ∧ block.condition.text = "" ∧
          (∀ term, ¬Expresses block.condition.text term) ∧
          ∀ statement, ¬States (Program.blockText block) statement := by
  let shape : ProgramShape := ⟨.exactly 1, ⟨.empty, .empty, .empty⟩⟩
  refine ⟨⟨.ofString "p.js", none, shape, .randomized, Config.defaultEngine⟩, by decide +kernel,
    fun random => ?_⟩
  have hfits : shape.Fits :=
    ⟨by unfold CanHold; decide, fun _ => by unfold ExpressionShape.Fits CanHold; decide⟩
  obtain ⟨program, next, hrun⟩ := Program.exists_of_synthesize hfits .standard random
  have hlength : program.blocks.length = 1 :=
    Nat.le_antisymm (Program.length_blocks_of_synthesize hrun).2
      (Program.length_blocks_of_synthesize hrun).1
  obtain ⟨block, hblock⟩ := List.length_eq_one_iff.mp hlength
  have hdrawn : Program.IsDrawn .standard shape.guardShape 0 block :=
    Program.isDrawn_of_synthesize hrun 0 block (by rw [hblock]; rfl)
  obtain ⟨source, after, hcondition⟩ := hdrawn.condition
  have hlanguage := Expression.inLanguage_of_synthesize (by decide) (by decide) hcondition
  have htext : block.condition.text = "" := by
    rw [Expression.text, List.length_eq_zero_iff.mp (Nat.le_zero.mp hlanguage.length_operands_le)]
  have htag : IsPlain block.tag.toList := hdrawn.tag ▸ Program.isPlain_tagOf 0
  refine ⟨program, next, block, hrun, hblock, htext, ?_, Program.not_states_blockText htext htag⟩
  rw [htext]
  exact not_expresses_empty

end EngineFuzz
