import EngineFuzz.Proofs.ConditionTrees
import EngineFuzz.Proofs.GuardConditions
/-!
# The trees of synthesized expressions

An expression is synthesized as a flat chain, and its last operator is a comparison while all
others are arithmetic.  Comparisons bind more loosely than arithmetic, so an engine that reads
the text compares last: the comparison is the root of the tree, its right side is the last
operand, and its left side groups all that stands before.  This needs two things.  The operators
and operands must be told apart again, whatever signs and quotes the operands have; and the tree
must be the only one.

* `Expression.textAfterFirst_concat` — the last operator and the last operand of a chain;
* `Expression.exists_derives_sum` — what stands before the comparison is a sum;
* `comparison_is_root` — the tree of an expression.
-/

namespace EngineFuzz

open Randomness Grammar

/-- Every operand of the standard pool is one operand of the grammar, which is written like it. -/
theorem exists_term_of_isOperand {symbol : String} (h : SymbolPool.standard.IsOperand symbol) :
    ∃ found term, tokens symbol.toList = some found ∧ Derives operandLevel found term ∧
      term.source = symbol ∧ term.operands = [symbol] ∧ term.operators = [] := by
  have hall : ∀ symbol ∈ SymbolPool.standard.inputs ++ SymbolPool.standard.constants ++
      SymbolPool.standard.literals, ∃ term ∈ (tokens symbol.toList).bind operand?,
        term.source = symbol ∧ term.operands = [symbol] ∧ term.operators = [] := by
    decide +kernel
  have hmem : symbol ∈ SymbolPool.standard.inputs ++ SymbolPool.standard.constants ++
      SymbolPool.standard.literals := by
    rcases h with h | h | h <;> simp [h]
  obtain ⟨term, hterm, hwritten⟩ := hall symbol hmem
  obtain ⟨found, hfound, hoperand⟩ := Option.bind_eq_some_iff.mp hterm
  exact ⟨found, term, hfound, derives_of_operand? hoperand, hwritten⟩

namespace Expression

variable {operands operators : List String}

/-- The last operand of a chain stands behind the last operator. -/
theorem textAfterFirst_concat (hlength : operators.length = operands.length)
    (operator last : String) : textAfterFirst (operands ++ [last]) (operators ++ [operator]) =
      textAfterFirst operands operators ++ (" " ++ operator ++ " " ++ last) := by
  induction operands, operators using textAfterFirst.induct with
  | case1 operators =>
    obtain rfl : operators = [] := List.length_eq_zero_iff.mp hlength
    simp [textAfterFirst]
  | case2 operand operands ih => cases hlength
  | case3 operand operands first operators ih =>
    rw [List.cons_append, List.cons_append, textAfterFirst, ih (Nat.succ.inj hlength),
      textAfterFirst, ← String.append_assoc]

/-- **A chain of arithmetic operators is a sum,** from any sum on.  It groups the operands and
the operators in their order. -/
theorem exists_derives_sum (hlength : operators.length = operands.length)
    (harithmetic : ∀ operator ∈ operators, operator ∈ SymbolPool.standard.arithmetic)
    (hoperands : ∀ symbol ∈ operands, SymbolPool.standard.IsOperand symbol) {before : List Char}
    {found : List Token} {term : Term} (hbefore : tokens before = some found)
    (hterm : Derives sumLevel found term) :
    ∃ all whole, tokens (before ++ (textAfterFirst operands operators).toList) = some all ∧
      Derives sumLevel all whole ∧ whole.operands = term.operands ++ operands ∧
      whole.operators = term.operators ++ operators := by
  induction operands, operators using textAfterFirst.induct generalizing before found term with
  | case1 operators =>
    obtain rfl : operators = [] := List.length_eq_zero_iff.mp hlength
    refine ⟨found, term, ?_, hterm, (List.append_nil _).symm, (List.append_nil _).symm⟩
    rw [textAfterFirst, String.toList_empty, List.append_nil, hbefore]
  | case2 operand operands ih => cases hlength
  | case3 operand operands operator operators ih =>
    obtain ⟨hoperand, hoperands⟩ := List.forall_mem_cons.mp hoperands
    obtain ⟨hoperator, harithmetic⟩ := List.forall_mem_cons.mp harithmetic
    obtain ⟨behind, last, hbehind, hlast, -, hone, hnone⟩ := exists_term_of_isOperand hoperand
    obtain ⟨hmark, hlevel⟩ := tokens_of_mem_arithmetic hoperator
    obtain ⟨longer, hlonger, hlongerOperands, hlongerOperators⟩ := hterm.extend hlevel hlast
    obtain ⟨all, whole, hall, hwhole, hwholeOperands, hwholeOperators⟩ :=
      ih (Nat.succ.inj hlength) harithmetic hoperands
        (tokens_append_space hbefore (tokens_append_space hmark hbehind)) hlonger
    refine ⟨all, whole, ?_, hwhole, ?_, ?_⟩
    · rw [← hall]
      simp [textAfterFirst]
    · rw [hwholeOperands, hlongerOperands, hone, List.append_assoc, List.singleton_append]
    · rw [hwholeOperators, hlongerOperators, hnone, List.append_assoc, List.cons_append,
        List.nil_append]

/-- An arithmetic chain with a comparison and an operand behind it is compared with that operand. -/
theorem exists_expresses_comparison {first last comparison : String}
    (hlength : operators.length = operands.length) (hfirst : SymbolPool.standard.IsOperand first)
    (hoperands : ∀ symbol ∈ operands, SymbolPool.standard.IsOperand symbol)
    (harithmetic : ∀ operator ∈ operators, operator ∈ SymbolPool.standard.arithmetic)
    (hcomparison : comparison ∈ SymbolPool.standard.comparison)
    (hlast : SymbolPool.standard.IsOperand last) :
    ∃ left right,
      Expresses (text ⟨first :: (operands ++ [last]), operators ++ [comparison]⟩)
        (.binary comparison left right) ∧
      left.operands = first :: operands ∧ left.operators = operators ∧
      right.source = last ∧ right.operands = [last] ∧ right.operators = [] := by
  obtain ⟨start, term, hstart, hterm, -, hone, hnone⟩ := exists_term_of_isOperand hfirst
  obtain ⟨found, left, hfound, hleft, hleftOperands, hleftOperators⟩ :=
    exists_derives_sum hlength harithmetic hoperands hstart (hterm.loosen (by decide) (by decide))
  obtain ⟨behind, right, hbehind, hright, hwritten⟩ := exists_term_of_isOperand hlast
  obtain ⟨hmark, hlevel⟩ := tokens_of_mem_comparison hcomparison
  rw [hone] at hleftOperands
  rw [hnone] at hleftOperators
  refine ⟨left, right, ⟨found ++ .mark comparison :: behind, ?_, ?_⟩, hleftOperands, hleftOperators,
    hwritten⟩
  · have htext : (text ⟨first :: (operands ++ [last]), operators ++ [comparison]⟩).toList =
        (first.toList ++ (textAfterFirst operands operators).toList) ++
          ' ' :: (comparison.toList ++ ' ' :: last.toList) := by
      simp [text, textAfterFirst_concat hlength]
    rw [htext]
    exact tokens_append_space hfound (tokens_append_space hmark hbehind)
  · rcases hlevel with hequality | hrelation
    · have hcompared : Derives equalityLevel (found ++ .mark comparison :: behind) _ :=
        .binary hequality (hleft.loosen (by decide) (by decide))
          (hright.loosen (by decide) (by decide))
      exact hcompared.loosen (by decide) (by decide)
    · have hcompared : Derives relationLevel (found ++ .mark comparison :: behind) _ :=
        .binary hrelation (hleft.loosen (by decide) (by decide))
          (hright.loosen (by decide) (by decide))
      exact hcompared.loosen (by decide) (by decide)

end Expression

/-- No arithmetic operator of the standard pool is a comparison. -/
theorem not_mem_comparison_of_mem_arithmetic {operator : String}
    (h : operator ∈ SymbolPool.standard.arithmetic) :
    operator ∉ SymbolPool.standard.comparison := by
  have hall : ∀ operator ∈ SymbolPool.standard.arithmetic,
      operator ∉ SymbolPool.standard.comparison := by
    decide
  exact hall operator h

/-- **The comparison of an expression is the root of its tree.**  The text of an expression of
two operands or more is an expression of the grammar in one way, and its tree compares: by the
root operator of the chain, the last operand alone on the right, and on the left all other
operands in their order, with arithmetic operators only.  So one comparison occurs, and it is
the outermost operator. -/
theorem comparison_is_root {shape : ExpressionShape} {random next : Source} {e : Expression}
    (h : (Expression.synthesize .standard shape).run random = (.ok e, next))
    (htwo : 2 ≤ e.operands.length) :
    ∃ comparison left right,
      e.rootOperator = some comparison ∧ comparison ∈ SymbolPool.standard.comparison ∧
      (∀ term, Expresses e.text term ↔ term = .binary comparison left right) ∧
      (left.operands = e.operands.dropLast ∧ left.operators = e.operators.dropLast ∧
        ∀ operator ∈ left.operators, operator ∈ SymbolPool.standard.arithmetic) ∧
      (e.operands.getLast? = some right.source ∧ right.operands = [right.source] ∧
        right.operators = []) ∧
      (Term.binary comparison left right).operators.filter (· ∈ SymbolPool.standard.comparison) =
        [comparison] := by
  have hfrom := Expression.isFrom_of_synthesize h
  have hlanguage := Expression.inLanguage_of_synthesize (by decide) (by decide) h
  have hcount := hlanguage.length_operators
  obtain ⟨harithmetic, hcomparison⟩ := hlanguage.joins
  obtain ⟨operands, operators⟩ := e
  -- The chain is taken apart at its last operator.
  obtain ⟨first, others, rfl⟩ := List.exists_cons_of_ne_nil
    (List.ne_nil_of_length_pos (Nat.lt_of_lt_of_le Nat.zero_lt_two htwo))
  have hone : 0 < others.length := Nat.lt_of_succ_lt_succ htwo
  obtain ⟨before, last, rfl⟩ : ∃ before last, others = before ++ [last] :=
    ⟨_, _, (List.dropLast_concat_getLast (List.ne_nil_of_length_pos hone)).symm⟩
  have hjoins : 0 < operators.length := by
    rw [hcount]
    simp
  obtain ⟨inner, comparison, rfl⟩ : ∃ inner comparison, operators = inner ++ [comparison] :=
    ⟨_, _, (List.dropLast_concat_getLast (List.ne_nil_of_length_pos hjoins)).symm⟩
  have hlength : inner.length = before.length := by
    simpa using hcount
  rw [List.dropLast_concat] at harithmetic
  have hcompares : comparison ∈ SymbolPool.standard.comparison :=
    hcomparison comparison List.getLast?_concat
  obtain ⟨hfirst, hothers⟩ := List.forall_mem_cons.mp hfrom.operands
  obtain ⟨hbefore, hlast⟩ := List.forall_mem_append.mp hothers
  obtain ⟨left, right, htree, hleftOperands, hleftOperators, hsource, hrightOperands,
      hrightOperators⟩ :=
    Expression.exists_expresses_comparison hlength hfirst hbefore harithmetic hcompares
      (hlast last (List.mem_singleton_self last))
  refine ⟨comparison, left, right, List.getLast?_concat, hcompares, fun term => ?_,
    ⟨?_, ?_, fun operator hmem => harithmetic operator (hleftOperators ▸ hmem)⟩,
    ⟨?_, ?_, hrightOperators⟩, ?_⟩
  · constructor
    · exact fun hterm => hterm.unique htree
    · rintro rfl
      exact htree
  · rw [hleftOperands, ← List.cons_append, List.dropLast_concat]
  · rw [hleftOperators, List.dropLast_concat]
  · rw [hsource, ← List.cons_append, List.getLast?_concat]
  · rw [hsource, hrightOperands]
  · have hnone : inner.filter (· ∈ SymbolPool.standard.comparison) = [] :=
      List.filter_eq_nil_iff.mpr fun operator hmem hcompare =>
        not_mem_comparison_of_mem_arithmetic (harithmetic operator hmem)
          (of_decide_eq_true hcompare)
    rw [Term.operators, hleftOperators, hrightOperators, List.filter_append, hnone, List.nil_append]
    simp [hcompares]

/-- An expression with two signed numbers, one of them behind a sign of subtraction and before
one of multiplication. -/
theorem comparison_is_root_signed :
    let shape : ExpressionShape := ⟨.exactly 1, .empty, .exactly 3⟩
    let random : Source :=
      .listed [0, 0, 0, 1090000000, 1300000000, 490000000, 2170000000, 1210000000,
      3170000000, 2240000000, 1290000000, 2310000000, 1530000000]
    let e : Expression := ⟨["input_number_real", "-3434.239829382", "NaN", "-45"], ["-", "*", "<"]⟩
    (∃ next, (Expression.synthesize .standard shape).run random = (.ok e, next)) ∧
      2 ≤ e.operands.length ∧ e.text = "input_number_real - -3434.239829382 * NaN < -45" ∧
      ∃ left right, (∀ term, Expresses e.text term ↔ term = .binary "<" left right) ∧
        left.operands = ["input_number_real", "-3434.239829382", "NaN"] ∧
        left.operators = ["-", "*"] ∧
        right.source = "-45" := by
  intro shape random e
  have hresult : ((Expression.synthesize .standard shape).run random).1 = .ok e := by decide +kernel
  rcases hrun : (Expression.synthesize .standard shape).run random with ⟨result, next⟩
  rw [hrun] at hresult
  obtain rfl : result = .ok e := hresult
  obtain ⟨comparison, left, right, hroot, -, htree, ⟨hoperands, hoperators, -⟩, ⟨hlast, -⟩, -⟩ :=
    comparison_is_root hrun (by decide)
  obtain rfl : "<" = comparison := Option.some.inj hroot
  exact ⟨⟨next, rfl⟩, by decide, by decide +kernel, left, right, htree, hoperands, hoperators,
    (Option.some.inj hlast).symm⟩

end EngineFuzz
