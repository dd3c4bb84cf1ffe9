import EngineFuzz.Expression
/-!
# The symbols of an expression

A synthesized expression is put together from the entries of tables, and nothing else gets into
it: each operand is an entry of an operand table and each operator an entry of an operator
table.  A property of single characters that all symbols of a pool have is then a property of
the text, as long as a space has it too.

* `Draw.mem_of_pick`, `Draw.shuffle_perm` — what a choice and an exchange of places can yield;
* `Expression.IsFrom` — all symbols of an expression are from a pool;
* `Expression.isFrom_of_synthesize` — a synthesized expression is from its pool;
* `Expression.forall_mem_text` — what holds of the characters of the symbols holds of the text.
-/

namespace EngineFuzz

open Randomness

namespace Randomness.Draw

variable {α : Type}

/-- What is picked is an entry of the table. -/
theorem mem_of_pick {table : List α} {source : Source} {x : α}
    (h : x ∈ (pick table source).1) : x ∈ table := by
  cases table with
  | nil => cases h
  | cons first others => exact List.mem_of_getElem? h

/-- Exchanging two places permutes an array. -/
theorem swapIfInBounds_perm (xs : Array α) (i j : Nat) : (xs.swapIfInBounds i j).Perm xs := by
  unfold Array.swapIfInBounds
  split
  · split
    · exact Array.swap_perm _ _
    · exact Array.Perm.refl xs
  · exact Array.Perm.refl xs

/-- Exchanging places one after the other permutes an array. -/
theorem shuffleFrom_perm (last : Nat) (xs : Array α) (source : Source) :
    (shuffleFrom last xs source).1.Perm xs := by
  induction last generalizing xs source with
  | zero => exact Array.Perm.refl xs
  | succ last ih =>
    have hswap := swapIfInBounds_perm xs (last + 1) (place (last + 2) source).1
    exact (ih _ _).trans hswap

/-- A shuffled list has the same entries. -/
theorem shuffle_perm (xs : List α) (source : Source) : (shuffle xs source).1.Perm xs := by
  have hperm := shuffleFrom_perm (xs.length - 1) xs.toArray source
  exact Array.perm_iff_toList_perm.mp hperm

end Randomness.Draw

namespace Synthesis

variable {α β : Type} {source final : Source}

/-- A synthesis comes to a value if what it begins with does and what it goes on with does. -/
theorem run_bind_eq_ok_iff {first : Synthesis α} {next : α → Synthesis β} {b : β} :
    (first >>= next).run source = (.ok b, final) ↔
      ∃ a middle, first.run source = (.ok a, middle) ∧ (next a).run middle = (.ok b, final) := by
  have hbind : (first >>= next).run source =
      ExceptT.bindCont next (first.run source).1 (first.run source).2 := rfl
  rw [hbind]
  rcases hfirst : first.run source with ⟨result, middle⟩
  cases result with
  | ok a =>
    constructor
    · intro h
      exact ⟨a, middle, rfl, h⟩
    · rintro ⟨a', middle', heq, h⟩
      cases heq
      exact h
  | error overload =>
    constructor
    · intro h
      exact nomatch (Prod.mk.inj h).1
    · rintro ⟨a', middle', heq, -⟩
      exact nomatch (Prod.mk.inj heq).1

end Synthesis

namespace SymbolPool

/-- A symbol that stands for an operand. -/
def IsOperand (pool : SymbolPool) (symbol : String) : Prop :=
  symbol ∈ pool.inputs ∨ symbol ∈ pool.constants ∨ symbol ∈ pool.literals

/-- A symbol that stands for an operator. -/
def IsOperator (pool : SymbolPool) (symbol : String) : Prop :=
  symbol ∈ pool.arithmetic ∨ symbol ∈ pool.comparison

/-- All symbols of a pool, table by table. -/
def symbols (pool : SymbolPool) : List String :=
  pool.inputs ++ pool.constants ++ pool.literals ++ pool.arithmetic ++ pool.comparison

/-- An operand is a symbol. -/
theorem IsOperand.mem_symbols {pool : SymbolPool} {symbol : String} (h : pool.IsOperand symbol) :
    symbol ∈ pool.symbols := by
  rcases h with h | h | h <;> simp [symbols, h]

/-- An operator is a symbol. -/
theorem IsOperator.mem_symbols {pool : SymbolPool} {symbol : String} (h : pool.IsOperator symbol) :
    symbol ∈ pool.symbols := by
  rcases h with h | h <;> simp [symbols, h]

end SymbolPool

namespace Expression

variable {pool : SymbolPool}

/-- All operands and all operators are symbols of a pool. -/
structure IsFrom (e : Expression) (pool : SymbolPool) : Prop where
  operands : ∀ symbol ∈ e.operands, pool.IsOperand symbol
  operators : ∀ symbol ∈ e.operators, pool.IsOperator symbol

/-- Operands that are drawn from a table are entries of it. -/
theorem mem_of_drawOperands {table : List String} {count : Nat} {source : Source} {symbol : String}
    (h : symbol ∈ (drawOperands table count source).1) : symbol ∈ table := by
  induction count generalizing source with
  | zero => cases h
  | succ count ih =>
    rcases List.mem_append.mp h with hpicked | hrest
    · exact Draw.mem_of_pick (Option.mem_toList.mp hpicked)
    · exact ih hrest

/-- Operators that are drawn are entries of one of the two tables. -/
theorem isOperator_of_drawOperators {joins : Nat} {source : Source} {symbol : String}
    (h : symbol ∈ (drawOperators pool joins source).1) : pool.IsOperator symbol := by
  induction joins using drawOperators.induct generalizing source with
  | case1 => cases h
  | case2 => exact Or.inr (Draw.mem_of_pick (Option.mem_toList.mp h))
  | case3 joins ih =>
    rcases List.mem_append.mp h with hpicked | hrest
    · exact Or.inl (Draw.mem_of_pick (Option.mem_toList.mp hpicked))
    · exact ih hrest

/-- A chain is made of symbols of its pool. -/
theorem isFrom_drawChain (pool : SymbolPool) (inputs consts literals : Nat) (source : Source) :
    IsFrom (drawChain pool inputs consts literals source).1 pool where
  operands symbol hsymbol := by
    have hdrawn := (Draw.shuffle_perm _ _).mem_iff.mp hsymbol
    rcases List.mem_append.mp hdrawn with hdrawn | hliteral
    · rcases List.mem_append.mp hdrawn with hinput | hconstant
      · exact Or.inl (mem_of_drawOperands hinput)
      · exact Or.inr (Or.inl (mem_of_drawOperands hconstant))
    · exact Or.inr (Or.inr (mem_of_drawOperands hliteral))
  operators _ hsymbol := isOperator_of_drawOperators hsymbol

/-- **A synthesized expression is made of symbols of its pool.** -/
theorem isFrom_of_synthesize {shape : ExpressionShape} {source next : Source} {e : Expression}
    (h : (synthesize pool shape).run source = (.ok e, next)) : e.IsFrom pool := by
  obtain ⟨inputs, _, -, h⟩ := Synthesis.run_bind_eq_ok_iff.mp h
  obtain ⟨consts, _, -, h⟩ := Synthesis.run_bind_eq_ok_iff.mp h
  obtain ⟨literals, _, -, h⟩ := Synthesis.run_bind_eq_ok_iff.mp h
  obtain ⟨_, middle, -, h⟩ := Synthesis.run_bind_eq_ok_iff.mp h
  have hchain : (drawChain pool inputs consts literals middle).1 = e :=
    Except.ok.inj (Prod.mk.inj h).1
  rw [← hchain]
  exact isFrom_drawChain pool inputs consts literals middle

/-- What holds of the characters of the symbols and of a space holds of the text after the first
operand. -/
theorem forall_mem_textAfterFirst {p : Char → Prop} (hspace : p ' ')
    {operands operators : List String} (hoperands : ∀ symbol ∈ operands, ∀ c ∈ symbol.toList, p c)
    (hoperators : ∀ symbol ∈ operators, ∀ c ∈ symbol.toList, p c) :
    ∀ c ∈ (textAfterFirst operands operators).toList, p c := by
  induction operands, operators using textAfterFirst.induct with
  | case1 operators => exact fun c hc => nomatch hc
  | case2 operand operands ih =>
    obtain ⟨hfirst, hrest⟩ := List.forall_mem_cons.mp hoperands
    intro c hc
    rw [textAfterFirst, String.toList_append] at hc
    rcases List.mem_append.mp hc with hc | hc
    · exact hfirst c hc
    · exact ih hrest hoperators c hc
  | case3 operand operands operator operators ih =>
    obtain ⟨hfirst, hrest⟩ := List.forall_mem_cons.mp hoperands
    obtain ⟨hjoin, hjoins⟩ := List.forall_mem_cons.mp hoperators
    intro c hc
    simp only [textAfterFirst, String.toList_append, List.mem_append] at hc
    rcases hc with (((hc | hc) | hc) | hc) | hc
    · rw [List.mem_singleton.mp hc]
      exact hspace
    · exact hjoin c hc
    · rw [List.mem_singleton.mp hc]
      exact hspace
    · exact hfirst c hc
    · exact ih hrest hjoins c hc

/-- What holds of the characters of the symbols of a pool and of a space holds of the text of an
expression from that pool. -/
theorem IsFrom.forall_mem_text {p : Char → Prop} (hspace : p ' ')
    (hsymbols : ∀ symbol ∈ pool.symbols, ∀ c ∈ symbol.toList, p c) {e : Expression}
    (h : e.IsFrom pool) : ∀ c ∈ e.text.toList, p c := by
  have hoperands : ∀ symbol ∈ e.operands, ∀ c ∈ symbol.toList, p c :=
    fun symbol hmem => hsymbols symbol (h.operands symbol hmem).mem_symbols
  have hoperators : ∀ symbol ∈ e.operators, ∀ c ∈ symbol.toList, p c :=
    fun symbol hmem => hsymbols symbol (h.operators symbol hmem).mem_symbols
  unfold text
  split
  · exact fun c hc => nomatch hc
  · rename_i first others heq
    rw [heq] at hoperands
    obtain ⟨hfirst, hrest⟩ := List.forall_mem_cons.mp hoperands
    intro c hc
    rw [String.toList_append] at hc
    rcases List.mem_append.mp hc with hc | hc
    · exact hfirst c hc
    · exact forall_mem_textAfterFirst hspace hrest hoperators c hc

end Expression

end EngineFuzz
