import EngineFuzz.Proofs.ReachedValues
/-!
# The language of synthesized expressions

A pool and a shape describe a set of expressions without any drawing: the operands are inputs,
constants and literals in some order, as many of each as its range allows, and the operators
between them are arithmetic but for the last, which is a comparison.  Synthesis is random, and
that set is exactly what it can come to.  Each stage is bounded from both sides: the counts, the
operands that are taken from a table, their order, and the operators from left to right.

* `DrawnFrom`, `drawnFrom_drawOperands`, `exists_reaches_drawOperands` — the operands from one
  table;
* `Joins`, `joins_drawOperators`, `reaches_drawOperators` — the operators;
* `InLanguage`, `inLanguage_of_synthesize`, `reaches_synthesize` — the two halves;
* `synthesize_language` — synthesis comes to an expression of the language from every source,
  and each expression of the language comes from some words.
-/

namespace EngineFuzz

open Randomness

namespace Synthesis

variable {α β : Type}

/-- A draw inside a synthesis comes to what it comes to outside. -/
theorem run_liftM (draw : Draw α) (source : Source) :
    (liftM draw : Synthesis α).run source = (.ok (draw source).1, (draw source).2) := rfl

/-- What a draw reaches is reached inside a synthesis. -/
theorem reaches_liftM {draw : Draw α} {x : α} (h : draw.Reaches x) :
    Draw.Reaches (liftM draw : Synthesis α).run (.ok x) := by
  obtain ⟨words, hwords⟩ := h
  exact ⟨words, fun rest => by rw [run_liftM, hwords]⟩

/-- What a synthesis and one that goes on from it reach is reached by the words of both. -/
theorem reaches_bind {first : Synthesis α} {next : α → Synthesis β} {a : α}
    {result : Except Overload β}
    (hfirst : Draw.Reaches first.run (.ok a)) (hnext : Draw.Reaches (next a).run result) :
    Draw.Reaches (first >>= next).run result := by
  have hcontinued : Draw.Reaches (ExceptT.bindCont next (.ok a)) result := hnext
  exact hfirst.bind hcontinued

/-- An overload that is reached is not gone on from. -/
theorem reaches_bind_of_error {first : Synthesis α} {overload : Overload}
    (h : Draw.Reaches first.run (.error overload)) (next : α → Synthesis β) :
    Draw.Reaches (first >>= next).run (.error overload) := by
  have hstopped : Draw.Reaches (ExceptT.bindCont next (.error overload)) (.error overload) :=
    Draw.reaches_pure _
  exact h.bind hstopped

end Synthesis

/-- Counts whose operands of sixteen octets can be held are accepted. -/
theorem checkCounts_eq_ok {inputs consts literals : Nat}
    (h : 16 * (inputs + consts + literals) < 1 <<< 63) :
    checkCounts inputs consts literals = .ok () := by
  have hcount : inputs + consts + literals < UInt64.size := by
    rw [UInt64.size]
    omega
  have hstorage : (inputs + consts + literals) * 16 < 1 <<< 63 := by
    rwa [Nat.mul_comm]
  rw [checkCounts, if_pos hcount, checkStorage, if_pos hstorage]

namespace Expression

/-- Symbols from a table: entries of it, and as many as a range allows, but none from an empty
table. -/
structure DrawnFrom (table : List String) (range : SizeRange) (symbols : List String) : Prop where
  entries : ∀ symbol ∈ symbols, symbol ∈ table
  count : if table = [] then symbols.length = 0
    else range.min.toNat ≤ symbols.length ∧ symbols.length ≤ range.max.toNat

/-- Operators of a chain: arithmetic ones and at last a comparison. -/
structure Joins (pool : SymbolPool) (operators : List String) : Prop where
  arithmetic : ∀ operator ∈ operators.dropLast, operator ∈ pool.arithmetic
  comparison : ∀ operator ∈ operators.getLast?, operator ∈ pool.comparison

/-- The expressions that a pool and a shape describe. -/
structure InLanguage (pool : SymbolPool) (shape : ExpressionShape) (e : Expression) : Prop where
  operands : ∃ inputs constants literals : List String,
    e.operands.Perm (inputs ++ constants ++ literals) ∧
      DrawnFrom pool.inputs shape.inputVars inputs ∧
      DrawnFrom pool.constants shape.constVars constants ∧
      DrawnFrom pool.literals shape.literals literals
  length_operators : e.operators.length = max e.operands.length 1 - 1
  joins : Joins pool e.operators

section Operands

variable {table symbols : List String} {range : SizeRange} {count : Nat}

/-- An empty table contributes nothing, and nothing is drawn for it. -/
theorem drawOperands_nil (count : Nat) : drawOperands [] count = pure [] := by
  induction count with
  | zero => rfl
  | succ count ih =>
    rw [drawOperands, ih, Draw.pick_nil]
    rfl

/-- From a table that has entries as many are drawn as are asked for. -/
theorem length_drawOperands (hne : table ≠ []) (count : Nat) (source : Source) :
    (drawOperands table count source).1.length = count := by
  induction count generalizing source with
  | zero => rfl
  | succ count ih =>
    obtain ⟨symbol, -, hpicked⟩ := Draw.exists_of_pick hne source
    have hrun : (drawOperands table (count + 1) source).1 =
        (Draw.pick table source).1.toList ++
          (drawOperands table count (Draw.pick table source).2).1 := rfl
    rw [hrun, hpicked, List.length_append, ih]
    exact Nat.add_comm 1 count

/-- **Operands are drawn from their table,** in the number that was drawn from the range before. -/
theorem drawnFrom_drawOperands (hmin : range.min.toNat ≤ count) (hmax : count ≤ range.max.toNat)
    (source : Source) : DrawnFrom table range (drawOperands table count source).1 where
  entries := fun _ => mem_of_drawOperands
  count := by
    by_cases hne : table = []
    · subst hne
      rw [if_pos rfl, drawOperands_nil]
      rfl
    · rw [if_neg hne, length_drawOperands hne]
      exact ⟨hmin, hmax⟩

/-- Entries of a table are reached in any order and number. -/
theorem reaches_drawOperands (hentries : ∀ symbol ∈ symbols, symbol ∈ table)
    (hsize : table.length < UInt64.size) :
    Draw.Reaches (drawOperands table symbols.length) symbols := by
  induction symbols with
  | nil => exact Draw.reaches_pure []
  | cons symbol symbols ih =>
    obtain ⟨hsymbol, hsymbols⟩ := List.forall_mem_cons.mp hentries
    exact (Draw.reaches_pick hsymbol hsize).bind ((ih hsymbols).bind (Draw.reaches_pure _))

/-- No more symbols are drawn than the range allows. -/
theorem DrawnFrom.length_le (h : DrawnFrom table range symbols) :
    symbols.length ≤ range.max.toNat := by
  have hcount := h.count
  split at hcount
  · omega
  · exact hcount.2

/-- **Operands from a table are reached** behind some count of the range; from an empty table,
behind any. -/
theorem exists_reaches_drawOperands (h : DrawnFrom table range symbols)
    (hsize : table.length < UInt64.size) :
    ∃ count, range.min.toNat ≤ count ∧ count ≤ range.max.toNat ∧
      Draw.Reaches (drawOperands table count) symbols := by
  have hcount := h.count
  by_cases hne : table = []
  · rw [if_pos hne] at hcount
    have hsymbols : symbols = [] := List.length_eq_zero_iff.mp hcount
    refine ⟨range.min.toNat, Nat.le_refl _, UInt64.le_iff_toNat_le.mp range.ordered, ?_⟩
    rw [hne, drawOperands_nil, hsymbols]
    exact Draw.reaches_pure []
  · rw [if_neg hne] at hcount
    exact ⟨symbols.length, hcount.1, hcount.2, reaches_drawOperands h.entries hsize⟩

end Operands

section Operators

variable {pool : SymbolPool} {operators : List String}

/-- A chain without joins has no operators. -/
theorem joins_nil : Joins pool [] := ⟨fun _ h => (nomatch h), fun _ h => (nomatch h)⟩

/-- A single operator is a comparison. -/
theorem joins_singleton {operator : String} : Joins pool [operator] ↔ operator ∈ pool.comparison :=
  ⟨fun h => h.comparison operator rfl,
    fun h => ⟨fun _ hmem => (nomatch hmem), fun _ hmem => Option.some.inj hmem ▸ h⟩⟩

/-- Before other operators stands an arithmetic one. -/
theorem joins_cons_cons {first second : String} :
    Joins pool (first :: second :: operators) ↔
      first ∈ pool.arithmetic ∧ Joins pool (second :: operators) := by
  constructor
  · intro h
    have harithmetic := h.arithmetic
    rw [List.dropLast_cons_cons, List.forall_mem_cons] at harithmetic
    have hcomparison := h.comparison
    rw [List.getLast?_cons_cons] at hcomparison
    exact ⟨harithmetic.1, harithmetic.2, hcomparison⟩
  · rintro ⟨hfirst, h⟩
    refine ⟨?_, ?_⟩
    · rw [List.dropLast_cons_cons]
      exact List.forall_mem_cons.mpr ⟨hfirst, h.arithmetic⟩
    · rw [List.getLast?_cons_cons]
      exact h.comparison

/-- **Operators are drawn for every join,** and the last is a comparison. -/
theorem joins_drawOperators (harithmetic : pool.arithmetic ≠ [])
    (hcomparison : pool.comparison ≠ []) (joins : Nat) (source : Source) :
    (drawOperators pool joins source).1.length = joins ∧
      Joins pool (drawOperators pool joins source).1 := by
  induction joins using drawOperators.induct generalizing source with
  | case1 => exact ⟨rfl, joins_nil⟩
  | case2 =>
    obtain ⟨operator, hmem, hpicked⟩ := Draw.exists_of_pick hcomparison source
    have hrun : (drawOperators pool 1 source).1 = (Draw.pick pool.comparison source).1.toList := rfl
    rw [hrun, hpicked]
    exact ⟨rfl, joins_singleton.mpr hmem⟩
  | case3 joins ih =>
    obtain ⟨operator, hmem, hpicked⟩ := Draw.exists_of_pick harithmetic source
    obtain ⟨hlength, hrest⟩ := ih (Draw.pick pool.arithmetic source).2
    have hrun : (drawOperators pool (joins + 2) source).1 =
        (Draw.pick pool.arithmetic source).1.toList ++
          (drawOperators pool (joins + 1) (Draw.pick pool.arithmetic source).2).1 := rfl
    rw [hrun, hpicked]
    cases hothers : (drawOperators pool (joins + 1) (Draw.pick pool.arithmetic source).2).1 with
    | nil =>
      rw [hothers] at hlength
      cases hlength
    | cons second others =>
      rw [hothers] at hlength hrest
      exact ⟨congrArg (· + 1) hlength, joins_cons_cons.mpr ⟨hmem, hrest⟩⟩

/-- **Operators are reached,** arithmetic ones and at last a comparison. -/
theorem reaches_drawOperators (h : Joins pool operators)
    (harithmetic : pool.arithmetic.length < UInt64.size)
    (hcomparison : pool.comparison.length < UInt64.size) :
    Draw.Reaches (drawOperators pool operators.length) operators := by
  induction operators with
  | nil => exact Draw.reaches_pure []
  | cons first others ih =>
    cases others with
    | nil =>
      have hfirst : first ∈ pool.comparison := joins_singleton.mp h
      exact (Draw.reaches_pick hfirst hcomparison).bind (Draw.reaches_pure _)
    | cons second others =>
      obtain ⟨hfirst, hrest⟩ := joins_cons_cons.mp h
      exact (Draw.reaches_pick hfirst harithmetic).bind ((ih hrest).bind (Draw.reaches_pure _))

end Operators

section Language

variable {pool : SymbolPool} {shape : ExpressionShape} {e : Expression}

/-- A chain that is drawn behind counts of the ranges is in the language. -/
theorem inLanguage_drawChain (harithmetic : pool.arithmetic ≠ [])
    (hcomparison : pool.comparison ≠ []) {inputs consts literals : Nat}
    (hinputs : shape.inputVars.min.toNat ≤ inputs ∧ inputs ≤ shape.inputVars.max.toNat)
    (hconsts : shape.constVars.min.toNat ≤ consts ∧ consts ≤ shape.constVars.max.toNat)
    (hliterals : shape.literals.min.toNat ≤ literals ∧ literals ≤ shape.literals.max.toNat)
    (source : Source) :
    InLanguage pool shape (drawChain pool inputs consts literals source).1 := by
  let fromInputs := drawOperands pool.inputs inputs source
  let fromConstants := drawOperands pool.constants consts fromInputs.2
  let fromLiterals := drawOperands pool.literals literals fromConstants.2
  let shuffled := Draw.shuffle (fromInputs.1 ++ fromConstants.1 ++ fromLiterals.1) fromLiterals.2
  have hchain : (drawChain pool inputs consts literals source).1 =
      ⟨shuffled.1, (drawOperators pool (shuffled.1.length - 1) shuffled.2).1⟩ := rfl
  obtain ⟨hlength, hjoins⟩ :=
    joins_drawOperators harithmetic hcomparison (shuffled.1.length - 1) shuffled.2
  rw [hchain]
  refine ⟨⟨fromInputs.1, fromConstants.1, fromLiterals.1, Draw.shuffle_perm _ _, ?_, ?_, ?_⟩,
    ?_, hjoins⟩
  · exact drawnFrom_drawOperands hinputs.1 hinputs.2 _
  · exact drawnFrom_drawOperands hconsts.1 hconsts.2 _
  · exact drawnFrom_drawOperands hliterals.1 hliterals.2 _
  · simp only [hlength]
    omega

/-- **What synthesis comes to is in the language.** -/
theorem inLanguage_of_synthesize (harithmetic : pool.arithmetic ≠ [])
    (hcomparison : pool.comparison ≠ []) {random next : Source}
    (h : (synthesize pool shape).run random = (.ok e, next)) : e.InLanguage pool shape := by
  obtain ⟨inputs, _, hinputs, h⟩ := Synthesis.run_bind_eq_ok_iff.mp h
  obtain ⟨consts, _, hconsts, h⟩ := Synthesis.run_bind_eq_ok_iff.mp h
  obtain ⟨literals, _, hliterals, h⟩ := Synthesis.run_bind_eq_ok_iff.mp h
  obtain ⟨_, middle, -, h⟩ := Synthesis.run_bind_eq_ok_iff.mp h
  have hsampled : ∀ {range : SizeRange} {source after : Source} {count : Nat},
      (liftM range.sample : Synthesis Nat).run source = (.ok count, after) →
        range.min.toNat ≤ count ∧ count ≤ range.max.toNat := by
    intro range source after count hrun
    rw [Synthesis.run_liftM] at hrun
    have hcount : (range.sample source).1 = count := Except.ok.inj (Prod.mk.inj hrun).1
    exact hcount ▸ range.sample_bounds source
  rw [Synthesis.run_liftM] at h
  have hchain : (drawChain pool inputs consts literals middle).1 = e :=
    Except.ok.inj (Prod.mk.inj h).1
  rw [← hchain]
  exact inLanguage_drawChain harithmetic hcomparison (hsampled hinputs) (hsampled hconsts)
    (hsampled hliterals) middle

/-- Synthesis comes to an expression if all operands that the ranges allow can be held. -/
theorem exists_of_synthesize (pool : SymbolPool) (hstorage : 16 * (shape.inputVars.max.toNat +
      shape.constVars.max.toNat + shape.literals.max.toNat) < 1 <<< 63) (random : Source) :
    ∃ e next, (synthesize pool shape).run random = (.ok e, next) := by
  let inputs := shape.inputVars.sample random
  let consts := shape.constVars.sample inputs.2
  let literals := shape.literals.sample consts.2
  have hinputs : inputs.1 ≤ shape.inputVars.max.toNat := (shape.inputVars.sample_bounds random).2
  have hconsts : consts.1 ≤ shape.constVars.max.toNat := (shape.constVars.sample_bounds inputs.2).2
  have hliterals : literals.1 ≤ shape.literals.max.toNat :=
    (shape.literals.sample_bounds consts.2).2
  have hcheck : checkCounts inputs.1 consts.1 literals.1 = .ok () := checkCounts_eq_ok (by omega)
  have hchecked :
      (ExceptT.mk (pure (checkCounts inputs.1 consts.1 literals.1)) : Synthesis Unit).run
      literals.2 = (.ok (), literals.2) := by
    rw [hcheck]
    rfl
  let chain := drawChain pool inputs.1 consts.1 literals.1 literals.2
  refine ⟨chain.1, chain.2, ?_⟩
  refine Synthesis.run_bind_eq_ok_iff.mpr ⟨inputs.1, inputs.2, Synthesis.run_liftM _ _, ?_⟩
  refine Synthesis.run_bind_eq_ok_iff.mpr ⟨consts.1, consts.2, Synthesis.run_liftM _ _, ?_⟩
  refine Synthesis.run_bind_eq_ok_iff.mpr ⟨literals.1, literals.2, Synthesis.run_liftM _ _, ?_⟩
  exact Synthesis.run_bind_eq_ok_iff.mpr ⟨(), literals.2, hchecked, Synthesis.run_liftM _ _⟩

/-- **What is in the language is reached.**  The words are those for the three counts, for the
operands table by table, for the exchanges that put them in order, and for the operators. -/
theorem reaches_synthesize (h : e.InLanguage pool shape)
    (hstorage : 16 * (shape.inputVars.max.toNat + shape.constVars.max.toNat +
      shape.literals.max.toNat) < 1 <<< 63)
    (hsizes : ∀ table ∈ [pool.inputs, pool.constants, pool.literals, pool.arithmetic,
      pool.comparison], table.length < UInt64.size) :
    Draw.Reaches (synthesize pool shape).run (.ok e) := by
  simp only [List.forall_mem_cons] at hsizes
  obtain ⟨hinputSize, hconstantSize, hliteralSize, harithmeticSize, hcomparisonSize, -⟩ := hsizes
  obtain ⟨inputs, constants, literals, hperm, hinputs, hconstants, hliterals⟩ := h.operands
  have hlength : (inputs ++ constants ++ literals).length ≤ UInt64.size := by
    have hinputLength := hinputs.length_le
    have hconstantLength := hconstants.length_le
    have hliteralLength := hliterals.length_le
    rw [List.length_append, List.length_append, UInt64.size]
    omega
  obtain ⟨inputCount, hinputMin, hinputMax, hinputs⟩ :=
    exists_reaches_drawOperands hinputs hinputSize
  obtain ⟨constantCount, hconstantMin, hconstantMax, hconstants⟩ :=
    exists_reaches_drawOperands hconstants hconstantSize
  obtain ⟨literalCount, hliteralMin, hliteralMax, hliterals⟩ :=
    exists_reaches_drawOperands hliterals hliteralSize
  have hjoins : e.operands.length - 1 = e.operators.length := by
    rw [h.length_operators]
    omega
  have hoperators : Draw.Reaches (drawOperators pool (e.operands.length - 1)) e.operators := by
    rw [hjoins]
    exact reaches_drawOperators h.joins harithmeticSize hcomparisonSize
  have hchain : Draw.Reaches (drawChain pool inputCount constantCount literalCount) e :=
    hinputs.bind (hconstants.bind (hliterals.bind
      ((Draw.reaches_shuffle hperm hlength).bind (hoperators.bind (Draw.reaches_pure _)))))
  have hcheck : checkCounts inputCount constantCount literalCount = .ok () :=
    checkCounts_eq_ok (by omega)
  have hchecked : Draw.Reaches
      (ExceptT.mk (pure (checkCounts inputCount constantCount literalCount)) : Synthesis Unit).run
      (.ok ()) := by
    rw [hcheck]
    exact Draw.reaches_pure _
  have hrest : Draw.Reaches (do
      ExceptT.mk (pure (checkCounts inputCount constantCount literalCount))
      drawChain pool inputCount constantCount literalCount : Synthesis Expression).run (.ok e) :=
    Synthesis.reaches_bind hchecked (Synthesis.reaches_liftM hchain)
  have hinputRange := Synthesis.reaches_liftM (SizeRange.reaches_sample hinputMin hinputMax)
  have hconstantRange :=
    Synthesis.reaches_liftM (SizeRange.reaches_sample hconstantMin hconstantMax)
  have hliteralRange := Synthesis.reaches_liftM (SizeRange.reaches_sample hliteralMin hliteralMax)
  exact Synthesis.reaches_bind hinputRange
    (Synthesis.reaches_bind hconstantRange (Synthesis.reaches_bind hliteralRange hrest))

end Language

/-- **Synthesis has exactly its language.**  The tables of operators have entries, and all
operands that the ranges allow can be held together.  Then synthesis comes to an expression from
every source, and what it comes to is put together from operands of the three tables, as many of
each as its range says but none from an empty table, in some order, with arithmetic operators
between them and a comparison before the last.  Conversely, tables being lists that a 64-bit
number counts, each expression that is so put together comes from some words, which are all that
is drawn. -/
theorem synthesize_language (pool : SymbolPool) (shape : ExpressionShape)
    (harithmetic : pool.arithmetic ≠ []) (hcomparison : pool.comparison ≠ [])
    (hstorage : 16 * (shape.inputVars.max.toNat + shape.constVars.max.toNat +
      shape.literals.max.toNat) < 1 <<< 63) :
    (∀ random, ∃ e next, (synthesize pool shape).run random = (.ok e, next) ∧
        e.InLanguage pool shape) ∧
      ((∀ table ∈ [pool.inputs, pool.constants, pool.literals, pool.arithmetic, pool.comparison],
          table.length < UInt64.size) →
        ∀ e : Expression, e.InLanguage pool shape → ∃ words : List UInt64, ∀ rest,
          (synthesize pool shape).run (.listed (words ++ rest)) = (.ok e, .listed rest)) := by
  refine ⟨fun random => ?sound, fun hsizes e h => ?complete⟩
  case sound =>
    obtain ⟨e, next, hrun⟩ := exists_of_synthesize pool hstorage random
    exact ⟨e, next, hrun, inLanguage_of_synthesize harithmetic hcomparison hrun⟩
  case complete => exact reaches_synthesize h hstorage hsizes

/-- A chain of a comparison that is not the first entry of its table, a minus, an input between two
literals, and a table of constants that is empty although its range asks for two. -/
theorem synthesize_language_mixed :
    let pool : SymbolPool := ⟨["x"], [], ["1", "-2"], ["+", "-"], ["==", "<"]⟩
    let shape : ExpressionShape := ⟨.exactly 1, .exactly 2, ⟨1, 3, by decide⟩⟩
    let e : Expression := ⟨["-2", "x", "1"], ["-", "<"]⟩
    pool.arithmetic ≠ [] ∧ pool.comparison ≠ [] ∧
      16 * (shape.inputVars.max.toNat + shape.constVars.max.toNat + shape.literals.max.toNat) <
        1 <<< 63 ∧
      (∀ table ∈ [pool.inputs, pool.constants, pool.literals, pool.arithmetic, pool.comparison],
        table.length < UInt64.size) ∧
      e.InLanguage pool shape ∧
      (∃ words : List UInt64, ∀ rest,
        (synthesize pool shape).run (.listed (words ++ rest)) = (.ok e, .listed rest)) ∧
      ∃ drawn next, (synthesize pool shape).run (.ofSeed 7) = (.ok drawn, next) ∧
        drawn.InLanguage pool shape := by
  intro pool shape e
  have harithmetic : pool.arithmetic ≠ [] := by decide
  have hcomparison : pool.comparison ≠ [] := by decide
  have hstorage : 16 * (shape.inputVars.max.toNat + shape.constVars.max.toNat +
      shape.literals.max.toNat) < 1 <<< 63 := by decide
  have hsizes : ∀ table ∈ [pool.inputs, pool.constants, pool.literals, pool.arithmetic,
      pool.comparison], table.length < UInt64.size := by decide
  have hoperands : ∃ inputs constants literals : List String,
      e.operands.Perm (inputs ++ constants ++ literals) ∧
        DrawnFrom pool.inputs shape.inputVars inputs ∧
        DrawnFrom pool.constants shape.constVars constants ∧
        DrawnFrom pool.literals shape.literals literals :=
    ⟨["x"], [], ["-2", "1"], List.Perm.swap _ _ _, ⟨by decide, by decide⟩, ⟨by decide, by decide⟩,
      ⟨by decide, by decide⟩⟩
  have hlanguage : e.InLanguage pool shape := ⟨hoperands, rfl, ⟨by decide, by decide⟩⟩
  obtain ⟨hsound, hcomplete⟩ := synthesize_language pool shape harithmetic hcomparison hstorage
  exact ⟨harithmetic, hcomparison, hstorage, hsizes, hlanguage, hcomplete hsizes e hlanguage,
    hsound (.ofSeed 7)⟩

end Expression

end EngineFuzz
