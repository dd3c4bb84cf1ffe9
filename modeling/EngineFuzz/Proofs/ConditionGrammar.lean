import EngineFuzz.Expression
/-!
# A grammar of conditions

Generated programs are read by engines for ECMAScript.  What a text has to be like to be a
condition there is said by that language's grammar: a text is first divided into tokens, the
longest possible from left to right, and the tokens are then derived from the nonterminal of
expressions.  Of both parts as much is stated here as expressions of operands and operators
need: names, decimal numbers, texts between single quotes, the signs, all binary operators that
associate to the left, signs before an operand, and parentheses.  Escapes, numbers that begin or
end with a point, and comments are left out, so a text that derives here is an expression,
though not every expression derives here.

* `Grammar.tokens` — the tokens of a text, by a machine that lets a token grow as long as it can;
* `Grammar.tokens_append`, `Grammar.tokens_cons_of_closed` — where a text can be cut;
* `Grammar.Derives` — expressions by precedence;
* `Grammar.Derives.begins` — what the tokens of an expression begin with;
* `Grammar.Sum`, `Grammar.Sum.extend` — chains of arithmetic operators, from left to right;
* `Grammar.Performs` — calls, and statements under a condition.
-/

namespace EngineFuzz.Grammar

/-! ### Tokens -/

/-- A token of a text. -/
inductive Token where
  /-- A name or a reserved word. -/
  | name (text : String)
  | number (text : String)
  /-- A text, without its quotes. -/
  | text (content : String)
  | mark (text : String)
deriving DecidableEq, Repr

/-- The signs of one character. -/
def shortMarks : List Char := r"{}()[];,<>+-*/%&|^!~?:=.".toList

/-- The signs of several characters.  All their beginnings are signs too. -/
def longMarks : List (List Char) :=
  ["==", "===", "!=", "!==", "<=", ">=", "<<", ">>", ">>>", "&&", "||", "??", "?.", "++", "--",
    "**", "=>", "+=", "-=", "*=", "/=", "%=", "&=", "|=", "^=", "<<=", ">>=", ">>>=", "**=",
    "&&=", "||=", "??="].map String.toList

/-- Whether a character can begin a name. -/
def beginsName (c : Char) : Bool := c.isAlpha || c == '_' || c == '$'

/-- Whether a character can stand in a name. -/
def continuesName (c : Char) : Bool := beginsName c || c.isDigit

/-- Whether a character stands between tokens. -/
def isGap (c : Char) : Bool := c == ' ' || c == '\t' || c == '\n'

/-- Digits without a zero in front, unless it is the only one. -/
def isWhole (digits : List Char) : Bool :=
  digits ≠ [] && digits.all Char.isDigit && (digits.length = 1 || digits.head? ≠ some '0')

/-- Whether characters are a decimal number, perhaps with a fraction. -/
def isNumeral (cs : List Char) : Bool :=
  match cs.splitOn '.' with
  | [whole] => isWhole whole
  | [whole, fraction] => isWhole whole && fraction ≠ [] && fraction.all Char.isDigit
  | _ => false

/-- What has been read since the last token ended. -/
inductive Pending where
  | nothing
  | name (cs : List Char)
  | number (cs : List Char)
  /-- A text whose closing quote has not been read. -/
  | opened (cs : List Char)
  /-- A text with its closing quote. -/
  | closed (cs : List Char)
  | mark (cs : List Char)
  | comment
deriving DecidableEq, Repr

/-- What is pending after one more character, if that belongs to the same token. -/
def Pending.grow : Pending → Char → Option Pending
  | .name cs, c => if continuesName c then some (.name (cs ++ [c])) else none
  | .number cs, c => if continuesName c || c == '.' then some (.number (cs ++ [c])) else none
  | .opened cs, c =>
    if c == '\'' then some (.closed cs)
    else if c == '\\' || c == '\n' || c == '\r' then none else some (.opened (cs ++ [c]))
  | .mark cs, c =>
    if cs = ['/'] && (c == '/' || c == '*') then some .comment
    else if cs ++ [c] ∈ longMarks then some (.mark (cs ++ [c])) else none
  | .comment, _ => some .comment
  | .nothing, _ | .closed _, _ => none

/-- The token that is pending, if it is whole. -/
def Pending.finish : Pending → Option (List Token)
  | .nothing => some []
  | .name cs => some [.name (.ofList cs)]
  | .number cs => if isNumeral cs then some [.number (.ofList cs)] else none
  | .closed cs => some [.text (.ofList cs)]
  | .mark cs => some [.mark (.ofList cs)]
  | .opened _ | .comment => none

/-- What is pending after the first character of a token, or after a character between tokens. -/
def begin? (c : Char) : Option Pending :=
  if isGap c then some .nothing
  else if beginsName c then some (.name [c])
  else if c.isDigit then some (.number [c])
  else if c == '\'' then some (.opened [])
  else if c ∈ shortMarks then some (.mark [c])
  else none

/-- The tokens of what is pending and a text behind it.  A token ends where it cannot go on. -/
def tokensBehind (pending : Pending) : List Char → Option (List Token)
  | [] => pending.finish
  | c :: rest =>
    match pending.grow c with
    | some pending => tokensBehind pending rest
    | none => do
      let finished ← pending.finish
      let begun ← begin? c
      let others ← tokensBehind begun rest
      return finished ++ others

/-- The tokens of a text. -/
def tokens (cs : List Char) : Option (List Token) := tokensBehind .nothing cs

section Cutting

variable {pending : Pending} {cs rest : List Char} {c : Char} {before behind : List Token}

/-- That no whole token goes on with this character. -/
def Separates (c : Char) : Prop :=
  ∀ pending : Pending, pending.finish ≠ none → pending.grow c = none

/-- That a token ends here, whatever comes next. -/
def Pending.Ends (pending : Pending) : Prop := ∀ c, pending.grow c = none

/-- At a character that does not belong to the token before it the text is divided as if it
began there. -/
theorem tokensBehind_cons_of_grow (hgrow : pending.grow c = none)
    (hfinish : pending.finish = some before) (rest : List Char) :
    tokensBehind pending (c :: rest) = (tokens (c :: rest)).map (before ++ ·) := by
  have hnothing : Pending.nothing.grow c = none := rfl
  have hnone : Pending.nothing.finish = some [] := rfl
  simp only [tokens, tokensBehind, hgrow, hfinish, hnothing, hnone, Option.bind_eq_bind,
    Option.bind_some]
  cases begin? c with
  | none => rfl
  | some begun =>
    rw [Option.bind_some, Option.bind_some]
    cases tokensBehind begun rest <;> rfl

/-- Behind a token that ends, whatever comes, the text is divided as if it began there. -/
theorem tokensBehind_of_ends (h : pending.Ends) (hfinish : pending.finish = some before)
    (rest : List Char) : tokensBehind pending rest = (tokens rest).map (before ++ ·) := by
  cases rest with
  | nil =>
    rw [tokensBehind, hfinish]
    exact congrArg some (List.append_nil before).symm
  | cons c rest => exact tokensBehind_cons_of_grow (h c) hfinish rest

/-- **A text can be cut** in front of a character with which no token goes on, if what stands
before it can be divided into tokens. -/
theorem tokensBehind_append (hc : Separates c) (h : tokensBehind pending cs = some before)
    (rest : List Char) :
    tokensBehind pending (cs ++ c :: rest) = (tokens (c :: rest)).map (before ++ ·) := by
  induction cs generalizing pending before with
  | nil =>
    have hfinish : pending.finish = some before := h
    exact tokensBehind_cons_of_grow (hc pending (hfinish ▸ Option.some_ne_none _)) hfinish rest
  | cons first cs ih =>
    rw [List.cons_append, tokensBehind]
    rw [tokensBehind] at h
    cases hgrow : pending.grow first with
    | some grown =>
      rw [hgrow] at h
      exact ih h
    | none =>
      simp only [hgrow, Option.bind_eq_bind, Option.bind_eq_some_iff] at h ⊢
      obtain ⟨finished, hfinish, begun, hbegun, others, hothers, hbefore⟩ := h
      obtain rfl := Option.some.inj hbefore
      rw [hfinish, Option.bind_some, hbegun, Option.bind_some, ih hothers]
      cases tokens (c :: rest) with
      | none => rfl
      | some behind => exact congrArg some (List.append_assoc finished others behind).symm

theorem tokens_append (hc : Separates c) (h : tokens cs = some before) (rest : List Char) :
    tokens (cs ++ c :: rest) = (tokens (c :: rest)).map (before ++ ·) :=
  tokensBehind_append hc h rest

/-- A text may begin with a token that ends at once. -/
theorem tokens_cons_of_ends (hbegin : begin? c = some pending) (h : pending.Ends)
    (hfinish : pending.finish = some before) (rest : List Char) :
    tokens (c :: rest) = (tokens rest).map (before ++ ·) := by
  have hnothing : Pending.nothing.grow c = none := rfl
  have hnone : Pending.nothing.finish = some [] := rfl
  rw [tokens, tokensBehind, hnothing]
  simp only [hnone, hbegin, Option.bind_eq_bind, Option.bind_some, tokensBehind_of_ends h hfinish]
  cases tokens rest <;> rfl

/-- Characters that stand in no name, number or sign of several characters separate tokens. -/
theorem separates_of (hname : continuesName c = false) (hplain : c ∉ ['.', '/', '*'])
    (hmarks : ∀ mark ∈ longMarks, c ∉ mark) : Separates c := by
  intro pending hfinish
  simp only [List.mem_cons, List.not_mem_nil, or_false, not_or] at hplain
  obtain ⟨hdot, hslash, hstar⟩ := hplain
  have hdot : (c == '.') = false := beq_false_of_ne hdot
  have hslash : (c == '/') = false := beq_false_of_ne hslash
  have hstar : (c == '*') = false := beq_false_of_ne hstar
  cases pending with
  | nothing | closed => rfl
  | opened | comment => exact absurd rfl hfinish
  | name cs => simp only [Pending.grow, hname, Bool.false_eq_true, if_false]
  | number cs => simp only [Pending.grow, hname, hdot, Bool.or_self, Bool.false_eq_true, if_false]
  | mark cs =>
    have hlong : cs ++ [c] ∉ longMarks := fun hmem => hmarks _ hmem (by simp)
    simp only [Pending.grow, hslash, hstar, Bool.or_self, Bool.and_false,
      Bool.false_eq_true, if_false, if_neg hlong]

theorem separates_space : Separates ' ' := separates_of (by decide) (by decide) (by decide)

theorem separates_quote : Separates '\'' := separates_of (by decide) (by decide) (by decide)

theorem separates_closing : Separates ')' := separates_of (by decide) (by decide) (by decide)

/-- Between tokens nothing is read. -/
theorem tokens_cons_of_isGap (hgap : isGap c = true) (rest : List Char) :
    tokens (c :: rest) = tokens rest := by
  rw [tokens_cons_of_ends (if_pos hgap) (fun _ => rfl) rfl]
  cases tokens rest <;> rfl

/-- An opening parenthesis is a token of its own, and so is a closing one. -/
theorem tokens_cons_parenthesis (hc : c = '(' ∨ c = ')') (rest : List Char) :
    tokens (c :: rest) = (tokens rest).map (.mark (.ofList [c]) :: ·) := by
  have hbegin : begin? c = some (.mark [c]) := by rcases hc with rfl | rfl <;> rfl
  have hends : (Pending.mark [c]).Ends := by
    intro next
    have hslash : decide ([c] = ['/']) = false := by rcases hc with rfl | rfl <;> rfl
    have hheads : ∀ mark ∈ longMarks, mark.head? ≠ some c := by rcases hc with rfl | rfl <;> decide
    have hlong : [c] ++ [next] ∉ longMarks := fun hmem => hheads _ hmem rfl
    simp only [Pending.grow, hslash, Bool.false_and, Bool.false_eq_true, if_false, if_neg hlong]
  exact tokens_cons_of_ends hbegin hends rfl rest

/-- Tokens with a space between them. -/
theorem tokens_append_space (h : tokens cs = some before) (hrest : tokens rest = some behind) :
    tokens (cs ++ ' ' :: rest) = some (before ++ behind) := by
  rw [tokens_append separates_space h, tokens_cons_of_isGap rfl, hrest]
  rfl

/-- Characters that can stand between quotes as they are. -/
def IsPlain (content : List Char) : Prop := ∀ c ∈ content, c ∉ ['\'', '\\', '\n', '\r']

instance (content : List Char) : Decidable (IsPlain content) :=
  List.decidableBAll (fun c => c ∉ ['\'', '\\', '\n', '\r']) content

/-- Texts can be put between quotes one behind the other. -/
theorem isPlain_append {first second : List Char} :
    IsPlain (first ++ second) ↔ IsPlain first ∧ IsPlain second := List.forall_mem_append

/-- A text that has been opened goes on to its closing quote. -/
theorem tokensBehind_opened {content : List Char} (hplain : IsPlain content) (cs rest : List Char) :
    tokensBehind (.opened cs) (content ++ '\'' :: rest) =
      tokensBehind (.closed (cs ++ content)) rest := by
  induction content generalizing cs with
  | nil =>
    rw [List.append_nil]
    rfl
  | cons c content ih =>
    obtain ⟨hc, hplain⟩ := List.forall_mem_cons.mp hplain
    simp only [List.mem_cons, List.not_mem_nil, or_false, not_or] at hc
    obtain ⟨hquote, hescape, hfeed, hreturn⟩ := hc
    have hgrow : (Pending.opened cs).grow c = some (.opened (cs ++ [c])) := by
      simp [Pending.grow, hquote, hescape, hfeed, hreturn]
    rw [List.cons_append, tokensBehind, hgrow]
    exact (ih hplain (cs ++ [c])).trans (by rw [List.append_assoc]; rfl)

/-- A text between quotes is one token. -/
theorem tokens_quoted {content : List Char} (hplain : IsPlain content) (rest : List Char) :
    tokens ('\'' :: (content ++ '\'' :: rest)) =
      (tokens rest).map (.text (.ofList content) :: ·) := by
  have hopened : tokens ('\'' :: (content ++ '\'' :: rest)) =
      (tokensBehind (.opened []) (content ++ '\'' :: rest)).map ([] ++ ·) := by
    rw [tokens, tokensBehind]
    have hbegin : begin? '\'' = some (.opened []) := rfl
    have hnothing : Pending.nothing.grow '\'' = none := rfl
    simp only [hnothing, hbegin, Pending.finish, Option.bind_eq_bind, Option.bind_some]
    cases tokensBehind (.opened []) (content ++ '\'' :: rest) <;> rfl
  have hends : (Pending.closed content).Ends := fun _ => rfl
  rw [hopened, tokensBehind_opened hplain, List.nil_append, tokensBehind_of_ends hends rfl,
    Option.map_map]
  rfl

end Cutting

/-! ### Expressions -/

/-- What an expression is made of. -/
inductive Term where
  | name (text : String)
  | number (text : String)
  | text (content : String)
  /-- A sign before an operand. -/
  | signed (sign : String) (operand : Term)
  | binary (operator : String) (left right : Term)
  | grouped (inner : Term)
deriving DecidableEq, Repr

/-- Words that cannot be names.  Those that are values, such as the null value, are not among
them. -/
def reservedWords : List String :=
  ["await", "break", "case", "catch", "class", "const", "continue", "debugger", "default",
    "delete", "do", "else", "enum", "export", "extends", "finally", "for", "function", "if",
    "implements", "import", "in", "instanceof", "interface", "let", "new", "package", "private",
    "protected", "public", "return", "static", "super", "switch", "throw", "try", "typeof", "var",
    "void", "while", "with", "yield"]

/-- The operand that is a single token. -/
def Token.term? : Token → Option Term
  | .name word => if word ∈ reservedWords then none else some (.name word)
  | .number digits => some (.number digits)
  | .text content => some (.text content)
  | .mark _ => none

/-- The binary operators, from the loosest to the tightest; all associate to the left. -/
def binaryOperators : List (List String) :=
  [["||"], ["&&"], ["|"], ["^"], ["&"], ["==", "!=", "===", "!=="], ["<", ">", "<=", ">="],
    ["<<", ">>", ">>>"], ["+", "-"], ["*", "/", "%"]]

/-- The operators of a level of precedence. -/
def operatorsAt (level : Nat) : List String := binaryOperators.getD level []

/-- The level of equality operators. -/
abbrev equalityLevel : Nat := 5

/-- The level of relational operators. -/
abbrev relationLevel : Nat := 6

/-- The level of sums. -/
abbrev sumLevel : Nat := 8

/-- The level of products. -/
abbrev productLevel : Nat := 9

/-- The level of operands, perhaps with a sign. -/
abbrev operandLevel : Nat := 10

/-- The signs that can stand before an operand. -/
def signs : List String := ["+", "-", "~", "!"]

/-- Tokens are an expression of at least this level of precedence. -/
inductive Derives : Nat → List Token → Term → Prop
  | binary {level : Nat} {operator : String} {left right : List Token} {l r : Term} :
    operator ∈ operatorsAt level → Derives level left l → Derives (level + 1) right r →
      Derives level (left ++ .mark operator :: right) (.binary operator l r)
  | tighter {level : Nat} {tokens : List Token} {term : Term} :
    level < operandLevel → Derives (level + 1) tokens term → Derives level tokens term
  | signed {sign : String} {tokens : List Token} {term : Term} :
    sign ∈ signs → Derives operandLevel tokens term →
      Derives operandLevel (.mark sign :: tokens) (.signed sign term)
  | grouped {tokens : List Token} {term : Term} :
    Derives 0 tokens term → Derives operandLevel (.mark "(" :: (tokens ++ [.mark ")"]))
      (.grouped term)
  | operand {token : Token} {term : Term} :
    token.term? = some term → Derives operandLevel [token] term

namespace Derives

variable {level looser : Nat} {tokens : List Token} {term : Term}

/-- An expression of a level is one of every looser level. -/
theorem loosen (h : Derives level tokens term) (hle : looser ≤ level)
    (hlevel : level ≤ operandLevel) : Derives looser tokens term := by
  obtain ⟨steps, rfl⟩ := Nat.exists_eq_add_of_le hle
  induction steps with
  | zero => exact h
  | succ steps ih =>
    exact ih (.tighter (by omega) h) (Nat.le_add_right looser steps) (by omega)

/-- No expression is without tokens, and none begins with a closing parenthesis. -/
theorem begins (h : Derives level tokens term) :
    ∃ token rest, tokens = token :: rest ∧ token ≠ .mark ")" := by
  induction h with
  | @binary level operator left right l r hoperator hleft hright ihLeft ihRight =>
    obtain ⟨token, rest, rfl, hne⟩ := ihLeft
    exact ⟨token, rest ++ .mark operator :: right, rfl, hne⟩
  | tighter hlevel hterm ih => exact ih
  | @signed sign tokens term hsign hterm ih =>
    refine ⟨.mark sign, tokens, rfl, fun h => ?_⟩
    obtain rfl : sign = ")" := Token.mark.inj h
    exact absurd hsign (by decide)
  | grouped hterm ih => exact ⟨_, _, rfl, by decide⟩
  | @operand token term hterm =>
    refine ⟨token, [], rfl, fun h => ?_⟩
    rw [h] at hterm
    cases hterm

end Derives

/-- A chain of arithmetic operators as it stands before the next operand: a product alone, or a
sum whose last summand is a product that may go on. -/
def Sum (tokens : List Token) : Prop :=
  (∃ term, Derives productLevel tokens term) ∨
    ∃ before operator last l r, tokens = before ++ .mark operator :: last ∧
      operator ∈ operatorsAt sumLevel ∧ Derives sumLevel before l ∧ Derives productLevel last r

namespace Sum

variable {tokens operand : List Token} {operator : String}

/-- A chain of arithmetic operators is a sum. -/
theorem exists_derives (h : Sum tokens) : ∃ term, Derives sumLevel tokens term := by
  rcases h with ⟨term, hterm⟩ | ⟨before, operator, last, l, r, rfl, hoperator, hbefore, hlast⟩
  · exact ⟨term, hterm.loosen (by decide) (by decide)⟩
  · exact ⟨.binary operator l r, .binary hoperator hbefore hlast⟩

/-- **A chain goes on** with an arithmetic operator and an operand: a sign of products takes the
last summand to its left, one of sums takes all of the chain. -/
theorem extend (h : Sum tokens)
    (hoperator : operator ∈ operatorsAt sumLevel ∨ operator ∈ operatorsAt productLevel)
    (hoperand : ∃ term, Derives operandLevel operand term) :
    Sum (tokens ++ .mark operator :: operand) := by
  obtain ⟨term, hterm⟩ := hoperand
  rcases hoperator with hsum | hproduct
  · obtain ⟨whole, hwhole⟩ := h.exists_derives
    exact .inr ⟨tokens, operator, operand, whole, term, rfl, hsum, hwhole,
      hterm.loosen (by decide) (by decide)⟩
  · rcases h with ⟨whole, hwhole⟩ | ⟨before, sign, last, l, r, rfl, hsign, hbefore, hlast⟩
    · exact .inl ⟨.binary operator whole term, .binary hproduct hwhole hterm⟩
    · refine .inr ⟨before, sign, last ++ .mark operator :: operand, l,
        .binary operator r term, ?_, hsign, hbefore, .binary hproduct hlast hterm⟩
      rw [List.append_assoc, List.cons_append]

/-- A chain of arithmetic operators can be compared with an operand. -/
theorem exists_compared (h : Sum tokens)
    (hoperator : operator ∈ operatorsAt equalityLevel ∨ operator ∈ operatorsAt relationLevel)
    (hoperand : ∃ term, Derives operandLevel operand term) :
    ∃ term, Derives 0 (tokens ++ .mark operator :: operand) term := by
  obtain ⟨left, hleft⟩ := h.exists_derives
  obtain ⟨right, hright⟩ := hoperand
  refine ⟨.binary operator left right, ?_⟩
  rcases hoperator with hequality | hrelation
  · have hcompared : Derives equalityLevel (tokens ++ .mark operator :: operand) _ :=
      .binary hequality (hleft.loosen (by decide) (by decide))
        (hright.loosen (by decide) (by decide))
    exact hcompared.loosen (by decide) (by decide)
  · have hcompared : Derives relationLevel (tokens ++ .mark operator :: operand) _ :=
      .binary hrelation (hleft.loosen (by decide) (by decide))
        (hright.loosen (by decide) (by decide))
    exact hcompared.loosen (by decide) (by decide)

end Sum

/-! ### Statements -/

/-- What a statement does. -/
inductive Statement where
  | call (callee : String) (argument : Term)
  | conditional (condition : Term) (body : Statement)
deriving DecidableEq, Repr

/-- Tokens are a statement. -/
inductive Performs : List Token → Statement → Prop
  | call {callee : String} {argument : List Token} {term : Term} :
    callee ∉ reservedWords → Derives 0 argument term →
      Performs (.name callee :: .mark "(" :: (argument ++ [.mark ")", .mark ";"]))
        (.call callee term)
  | conditional {condition body : List Token} {term : Term} {statement : Statement} :
    Derives 0 condition term → Performs body statement →
      Performs (.name "if" :: .mark "(" :: (condition ++ .mark ")" :: .mark r"{" :: (body ++
        [.mark r"}"]))) (.conditional term statement)

/-- There is no statement under no condition. -/
theorem not_performs_of_no_condition {rest : List Token} {statement : Statement} :
    ¬Performs (.name "if" :: .mark "(" :: .mark ")" :: rest) statement := by
  intro h
  generalize htokens : Token.name "if" :: Token.mark "(" :: Token.mark ")" :: rest = tokens at h
  cases h with
  | call hcallee hargument =>
    obtain ⟨hname, -⟩ := List.cons.inj htokens
    obtain rfl := Token.name.inj hname
    exact hcallee (by decide)
  | conditional hcondition hbody =>
    obtain ⟨token, others, rfl, hne⟩ := hcondition.begins
    obtain ⟨-, hrest⟩ := List.cons.inj htokens
    obtain ⟨-, hrest⟩ := List.cons.inj hrest
    exact hne (List.cons.inj hrest).1.symm

/-- A text is an expression. -/
def Expresses (text : String) (term : Term) : Prop :=
  ∃ found, tokens text.toList = some found ∧ Derives 0 found term

/-- A text is a statement. -/
def States (text : String) (statement : Statement) : Prop :=
  ∃ found, tokens text.toList = some found ∧ Performs found statement

/-- A text without characters is no expression. -/
theorem not_expresses_empty (term : Term) : ¬Expresses "" term := by
  rintro ⟨found, hfound, hterm⟩
  obtain rfl : [] = found := Option.some.inj hfound
  obtain ⟨token, rest, hnone, -⟩ := hterm.begins
  cases hnone

end EngineFuzz.Grammar
