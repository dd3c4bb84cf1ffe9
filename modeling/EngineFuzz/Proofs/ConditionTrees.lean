import EngineFuzz.Proofs.ConditionGrammar
/-!
# One tree for each condition

What an engine does with a condition depends on how it groups it, so a grammar of conditions is
of use only if it groups each text in one way.  This one does.  Tokens are compared from left to
right.  An expression of a level is a tighter one, and behind it any number of operators of the
level with a tighter expression each; and where such an expression ends is settled by what
follows, since an operator belongs to one level alone.  The induction is on the number of
tokens, and for tokens of one number from the tightest level to the loosest.

* `Grammar.Stops` — that an expression of a level ends here;
* `Grammar.Derives.exists_joined` — expressions of a level, from left to right;
* `Grammar.Settled`, `Grammar.Settled.loosen`, `Grammar.settled_operand` — one level after another;
* `Grammar.Derives.unique`, `Grammar.Expresses.unique` — tokens, and texts, have at most one tree;
* `Grammar.Term.operands`, `Grammar.Term.operators` — what a tree groups;
* `Grammar.Derives.extend` — a chain that goes on with an arithmetic operator.
-/

namespace EngineFuzz.Grammar

/-! ### Levels -/

section Levels

variable {level other : Nat} {operator : String} {rest : List Token}

/-- An operator belongs to one level. -/
theorem eq_of_mem_operatorsAt (h : operator ∈ operatorsAt level)
    (h' : operator ∈ operatorsAt other) : level = other := by
  have hbelow : ∀ {level : Nat}, operator ∈ operatorsAt level → level < operandLevel := by
    intro level h
    refine Nat.lt_of_not_le fun hle => ?_
    have hnone : operatorsAt level = [] := by
      rw [operatorsAt, List.getD_eq_getElem?_getD, List.getElem?_eq_none hle, Option.getD_none]
    rw [hnone] at h
    cases h
  have hall : ∀ first < operandLevel, ∀ second < operandLevel, ∀ operator ∈ operatorsAt first,
      operator ∈ operatorsAt second → first = second := by
    decide +kernel
  exact hall level (hbelow h) other (hbelow h') operator h h'

/-- No operator of this level or a tighter one comes next. -/
def Stops (level : Nat) (rest : List Token) : Prop :=
  ∀ operator others, rest = .mark operator :: others →
    ∀ tighter, level ≤ tighter → operator ∉ operatorsAt tighter

/-- An expression ends where nothing comes next. -/
theorem stops_nil : Stops level [] := fun _ _ h => nomatch h

/-- An expression in parentheses ends at the closing one. -/
theorem stops_closing : Stops level (.mark ")" :: rest) := by
  rintro operator others hcons tighter - hmem
  obtain rfl : ")" = operator := Token.mark.inj (List.cons.inj hcons).1
  have hnone : ∀ group ∈ binaryOperators, ")" ∉ group := by decide
  rw [operatorsAt, List.getD_eq_getElem?_getD] at hmem
  cases hgroup : binaryOperators[tighter]? with
  | none =>
    rw [hgroup] at hmem
    cases hmem
  | some group =>
    rw [hgroup] at hmem
    exact hnone group (List.mem_of_getElem? hgroup) hmem

/-- Where an expression ends a tighter one ends as well. -/
theorem Stops.tighten (h : Stops level rest) : Stops (level + 1) rest :=
  fun operator others hcons tighter hle => h operator others hcons tighter (Nat.le_of_succ_le hle)

end Levels

/-! ### Expressions of a level, from left to right -/

/-- An operator with the expression behind it. -/
structure Joined where
  operator : String
  tokens : List Token
  term : Term

namespace Joined

/-- The operator is of this level, and the expression behind it is tighter. -/
def IsAt (level : Nat) (joined : Joined) : Prop :=
  joined.operator ∈ operatorsAt level ∧ Derives (level + 1) joined.tokens joined.term

/-- The tokens of several operators with their expressions. -/
def allTokens (chain : List Joined) : List Token :=
  chain.flatMap fun joined => .mark joined.operator :: joined.tokens

/-- What they make of an expression before them.  Each operator takes all that stands to its
left. -/
def extend (first : Term) (chain : List Joined) : Term :=
  chain.foldl (fun term joined => .binary joined.operator term joined.term) first

end Joined

section Chains

variable {level size : Nat} {tokens rest more : List Token} {term : Term}
    {chain others : List Joined}

/-- There are no levels beyond that of operands. -/
theorem Derives.le_operandLevel (h : Derives level tokens term) : level ≤ operandLevel := by
  induction h with
  | binary hoperator hleft hright ihLeft ihRight => exact ihLeft
  | tighter hlevel hterm ih => exact Nat.le_of_lt hlevel
  | signed | grouped | operand => exact Nat.le_refl _

/-- **An expression of a level** is a tighter one, and operators of the level with tighter ones
behind it. -/
theorem Derives.exists_joined (h : Derives level tokens term) (hlevel : level < operandLevel) :
    ∃ start first chain, Derives (level + 1) start first ∧ (∀ joined ∈ chain, joined.IsAt level) ∧
      tokens = start ++ Joined.allTokens chain ∧ term = Joined.extend first chain := by
  induction h with
  | @binary level operator left right l r hoperator hleft hright ihLeft ihRight =>
    obtain ⟨start, first, chain, hstart, hchain, rfl, rfl⟩ := ihLeft hlevel
    refine ⟨start, first, chain ++ [⟨operator, right, r⟩], hstart, ?_, ?_, ?_⟩
    · intro joined hmem
      rcases List.mem_append.mp hmem with hmem | hmem
      · exact hchain joined hmem
      · obtain rfl := List.mem_singleton.mp hmem
        exact ⟨hoperator, hright⟩
    · simp [Joined.allTokens]
    · simp [Joined.extend]
  | @tighter level tokens term hbelow hterm ih =>
    exact ⟨tokens, term, [], hterm, fun _ hmem => (nomatch hmem),
      (List.append_nil tokens).symm, rfl⟩
  | signed | grouped | operand => exact absurd hlevel (Nat.lt_irrefl _)

/-- An operand is a token, a sign with an operand, or an expression in parentheses. -/
theorem Derives.operand_cases (h : Derives operandLevel tokens term) :
    (∃ token, tokens = [token] ∧ token.term? = some term) ∨
    (∃ sign inner operand, sign ∈ signs ∧ Derives operandLevel inner operand ∧
      tokens = .mark sign :: inner ∧ term = .signed sign operand) ∨
    (∃ inner whole, Derives 0 inner whole ∧
      tokens = .mark "(" :: (inner ++ [.mark ")"]) ∧ term = .grouped whole) := by
  generalize hlevel : operandLevel = level at h
  cases h with
  | binary hoperator hleft hright =>
    subst hlevel
    cases hoperator
  | tighter hbelow hterm => exact absurd hlevel (Nat.ne_of_gt hbelow)
  | signed hsign hterm => exact .inr (.inl ⟨_, _, _, hsign, hterm, rfl, rfl⟩)
  | grouped hterm => exact .inr (.inr ⟨_, _, hterm, rfl, rfl⟩)
  | operand hterm => exact .inl ⟨_, rfl, hterm⟩

/-- Behind a tighter expression of a chain an operator of the level comes next, or what comes
behind the chain. -/
theorem stops_allTokens (hchain : ∀ joined ∈ chain, joined.IsAt level) (hrest : Stops level rest) :
    Stops (level + 1) (Joined.allTokens chain ++ rest) := by
  cases chain with
  | nil => exact hrest.tighten
  | cons joined chain =>
    rintro operator others hcons tighter hle hmem
    obtain rfl : joined.operator = operator := Token.mark.inj (List.cons.inj hcons).1
    have hlevel : level = tighter :=
      eq_of_mem_operatorsAt (hchain joined List.mem_cons_self).1 hmem
    omega

/-! ### The comparison of two readings -/

/-- Expressions of a level of at most so many tokens are settled by the tokens from where they
begin: two of them that end where no operator of the level comes next are the same, and end at
the same place. -/
def Settled (size level : Nat) : Prop :=
  ∀ ⦃tokens others rest more : List Token⦄ ⦃term other : Term⦄, tokens.length ≤ size →
    Derives level tokens term → Derives level others other → Stops level rest → Stops level more →
      tokens ++ rest = others ++ more → term = other ∧ rest = more

/-- If tighter expressions are settled, so is what operators of a level make of them. -/
theorem Settled.joined (h : Settled size (level + 1))
    (hsize : (Joined.allTokens chain).length ≤ size)
    (hchain : ∀ joined ∈ chain, joined.IsAt level) (hothers : ∀ joined ∈ others, joined.IsAt level)
    (hrest : Stops level rest) (hmore : Stops level more)
    (heq : Joined.allTokens chain ++ rest = Joined.allTokens others ++ more) (first : Term) :
    Joined.extend first chain = Joined.extend first others ∧ rest = more := by
  induction chain generalizing others first with
  | nil =>
    cases others with
    | nil => exact ⟨rfl, heq⟩
    | cons joined others =>
      exact absurd (hothers joined List.mem_cons_self).1 (hrest _ _ heq level (Nat.le_refl _))
  | cons joined chain ih =>
    obtain ⟨hjoined, hchain⟩ := List.forall_mem_cons.mp hchain
    cases others with
    | nil => exact absurd hjoined.1 (hmore _ _ heq.symm level (Nat.le_refl _))
    | cons another others =>
      obtain ⟨hanother, hothers⟩ := List.forall_mem_cons.mp hothers
      have htokens : ∀ (joined : Joined) (chain : List Joined),
          Joined.allTokens (joined :: chain) =
            .mark joined.operator :: (joined.tokens ++ Joined.allTokens chain) := fun _ _ => rfl
      rw [htokens, List.length_cons, List.length_append] at hsize
      rw [htokens, htokens, List.cons_append, List.cons_append, List.append_assoc,
        List.append_assoc] at heq
      obtain ⟨hmark, heq⟩ := List.cons.inj heq
      obtain ⟨hterm, heq⟩ := h (by omega) hjoined.2 hanother.2 (stops_allTokens hchain hrest)
        (stops_allTokens hothers hmore) heq
      have hoperator : joined.operator = another.operator := Token.mark.inj hmark
      obtain ⟨hextend, hends⟩ := ih (by omega) hchain hothers heq
        (.binary joined.operator first joined.term)
      refine ⟨?_, hends⟩
      rw [Joined.extend, List.foldl_cons]
      refine hextend.trans ?_
      rw [hoperator, hterm]
      rfl

/-- **From a tighter level to the next looser one.** -/
theorem Settled.loosen (h : Settled size (level + 1)) (hlevel : level < operandLevel) :
    Settled size level := by
  intro tokens others rest more term other hsize hterm hother hrest hmore heq
  obtain ⟨start, first, chain, hfirst, hchain, rfl, rfl⟩ := hterm.exists_joined hlevel
  obtain ⟨start', first', chain', hfirst', hchain', rfl, rfl⟩ := hother.exists_joined hlevel
  rw [List.length_append] at hsize
  rw [List.append_assoc, List.append_assoc] at heq
  obtain ⟨rfl, heq⟩ := h (by omega) hfirst hfirst' (stops_allTokens hchain hrest)
    (stops_allTokens hchain' hmore) heq
  exact h.joined (by omega) hchain hchain' hrest hmore heq first

/-- **From fewer tokens to one more.**  The first token tells the three kinds of operands apart,
and what stands behind a sign or a parenthesis has fewer tokens. -/
theorem settled_operand (hoperand : Settled size operandLevel) (hwhole : Settled size 0) :
    Settled (size + 1) operandLevel := by
  intro tokens others rest more term other hsize hterm hother hrest hmore heq
  have hparenthesis : "(" ∉ signs := by decide
  have hmark : ∀ {text : String} {term : Term}, (Token.mark text).term? ≠ some term := nofun
  rcases hterm.operand_cases with ⟨token, rfl, htoken⟩ |
    ⟨sign, inner, operand, hsign, hinner, rfl, rfl⟩ | ⟨inner, whole, hinner, rfl, rfl⟩ <;>
  rcases hother.operand_cases with ⟨token', rfl, htoken'⟩ |
    ⟨sign', inner', operand', hsign', hinner', rfl, rfl⟩ | ⟨inner', whole', hinner', rfl, rfl⟩ <;>
  obtain ⟨hhead, htail⟩ := List.cons.inj heq
  · subst hhead
    exact ⟨Option.some.inj (htoken.symm.trans htoken'), htail⟩
  · exact absurd (hhead ▸ htoken) hmark
  · exact absurd (hhead ▸ htoken) hmark
  · exact absurd (hhead ▸ htoken') hmark
  · obtain rfl := Token.mark.inj hhead
    rw [List.length_cons] at hsize
    obtain ⟨rfl, hends⟩ := hoperand (by omega) hinner hinner' hrest hmore htail
    exact ⟨rfl, hends⟩
  · exact absurd (Token.mark.inj hhead ▸ hsign) hparenthesis
  · exact absurd (hhead ▸ htoken') hmark
  · exact absurd (Token.mark.inj hhead ▸ hsign') hparenthesis
  · rw [List.length_cons, List.length_append] at hsize
    have hinside : inner ++ .mark ")" :: rest = inner' ++ .mark ")" :: more := by
      simpa using htail
    obtain ⟨rfl, hends⟩ := hwhole (by omega) hinner hinner' stops_closing stops_closing hinside
    exact ⟨rfl, (List.cons.inj hends).2⟩

/-- Expressions of every level and of any number of tokens are settled. -/
theorem settled (size : Nat) {level : Nat} (hlevel : level ≤ operandLevel) :
    Settled size level := by
  induction size generalizing level with
  | zero =>
    intro tokens others rest more term other hsize hterm
    obtain ⟨token, tokens, rfl, -⟩ := hterm.begins
    exact absurd hsize (Nat.not_succ_le_zero _)
  | succ size ih =>
    have hoperand : Settled (size + 1) operandLevel :=
      settled_operand (ih (Nat.le_refl _)) (ih (Nat.zero_le _))
    obtain ⟨gap, hgap⟩ := Nat.exists_eq_add_of_le hlevel
    induction gap generalizing level with
    | zero =>
      obtain rfl : operandLevel = level := hgap
      exact hoperand
    | succ gap ih =>
      have htighter : Settled (size + 1) (level + 1) := ih (by omega) (by omega)
      exact htighter.loosen (by omega)

/-- **Tokens are an expression in one way.** -/
theorem Derives.unique {other : Term} (h : Derives level tokens term)
    (h' : Derives level tokens other) : term = other :=
  (settled tokens.length h.le_operandLevel (Nat.le_refl _) h h' stops_nil stops_nil rfl).1

/-- **A text is an expression in one way.** -/
theorem Expresses.unique {text : String} {other : Term} (h : Expresses text term)
    (h' : Expresses text other) : term = other := by
  obtain ⟨found, hfound, hterm⟩ := h
  obtain ⟨found', hfound', hother⟩ := h'
  obtain rfl := Option.some.inj (hfound.symm.trans hfound')
  exact hterm.unique hother

end Chains

/-! ### What a tree groups -/

namespace Term

/-- A term as it is written, with a space on both sides of every binary operator. -/
def source : Term → String
  | .name word => word
  | .number digits => digits
  | .text content => "'" ++ content ++ "'"
  | .signed sign operand => sign ++ operand.source
  | .binary operator left right => left.source ++ " " ++ operator ++ " " ++ right.source
  | .grouped inner => "(" ++ inner.source ++ ")"

/-- The operands that binary operators stand between, from left to right, each as it is written.
A number with its sign is one operand. -/
def operands : Term → List String
  | .binary _ left right => left.operands ++ right.operands
  | term => [term.source]

/-- The binary operators of a term from left to right, those inside of operands too. -/
def operators : Term → List String
  | .binary operator left right => left.operators ++ operator :: right.operators
  | .signed _ operand => operand.operators
  | .grouped inner => inner.operators
  | .name _ => []
  | .number _ => []
  | .text _ => []

end Term

/-- **A chain goes on** with an arithmetic operator and an operand: a sign of products takes the
last summand to its left, one of sums takes all of the chain.  Either way operands and operators
keep their order. -/
theorem Derives.extend {tokens operand : List Token} {term last : Term} {operator : String}
    (h : Derives sumLevel tokens term)
    (hoperator : operator ∈ operatorsAt sumLevel ∨ operator ∈ operatorsAt productLevel)
    (hoperand : Derives operandLevel operand last) :
    ∃ whole, Derives sumLevel (tokens ++ .mark operator :: operand) whole ∧
      whole.operands = term.operands ++ last.operands ∧
      whole.operators = term.operators ++ operator :: last.operators := by
  rcases hoperator with hsum | hproduct
  · exact ⟨.binary operator term last, .binary hsum h (hoperand.loosen (by decide) (by decide)),
      rfl, rfl⟩
  generalize hlevel : sumLevel = level at h
  cases h with
  | @binary _ sign left right l r hsign hleft hright =>
    subst hlevel
    refine ⟨.binary sign l (.binary operator r last), ?_, ?_, ?_⟩
    · rw [List.append_assoc, List.cons_append]
      exact .binary hsign hleft (.binary hproduct hright hoperand)
    · simp [Term.operands]
    · simp [Term.operators]
  | tighter hbelow hterm =>
    subst hlevel
    exact ⟨.binary operator term last, .tighter hbelow (.binary hproduct hterm hoperand), rfl, rfl⟩
  | signed | grouped | operand => exact absurd hlevel (by decide)

end EngineFuzz.Grammar
