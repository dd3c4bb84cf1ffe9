import EngineFuzz.SizeRange
/-!
# Random expressions

An expression is a flat chain of operands with an operator between each two neighbours.  The
last operator of a synthesized chain is a comparison and all others are arithmetic, so that with
the usual precedences the comparison ends up at the root.

* `SymbolPool` — the tables that operands and operators are picked from, `SymbolPool.standard` the
  usual ones;
* `Expression.synthesize` — counts first, then operands table by table, then their order, then the
  operators from left to right;
* `Expression.text` — the chain as program text;
* `probeStatement` — an expression over literals alone, wrapped in a call of `print`.
-/

namespace EngineFuzz

open Randomness

/-- The tables that an expression picks its symbols from. -/
structure SymbolPool where
  inputs : List String
  constants : List String
  literals : List String
  arithmetic : List String
  comparison : List String
deriving DecidableEq, Repr

namespace SymbolPool

/-- Variables and literals of every primitive kind of value, and the operators that mix them. -/
def standard : SymbolPool where
  inputs := ["input_number_integer", "input_number_real", "input_boolean", "input_string"]
  constants :=
    ["const_null", "const_undefined", "const_nan", "const_pos_infinity", "const_neg_infinity",
      "const_number_integer", "const_number_real", "const_boolean", "const_string"]
  literals :=
    ["null", "undefined", "NaN", "Infinity", "15", "7004", "-45", "0", "-1", "5.8", "132.3984",
      "-3434.239829382", "'abra'", "'kadabra'", "'18'", "'-60'", "'56.7'", "'-34.2'", "'2.0'",
      "'-7.0'", "'NaN'", "'Infinity'"]
  arithmetic := ["+", "-", "*", "/"]
  comparison := ["==", "===", "<", ">", "<=", ">="]

end SymbolPool

/-- How many operands of each kind an expression draws. -/
structure ExpressionShape where
  inputVars : SizeRange
  constVars : SizeRange
  literals : SizeRange
deriving DecidableEq, Repr

/-- The shape of an expression over literals alone. -/
def ExpressionShape.literalsOnly (literals : SizeRange) : ExpressionShape :=
  ⟨.empty, .empty, literals⟩

/-- Why a synthesis stops before it makes anything: more items are asked for than can be held. -/
inductive Overload where
  /-- The counts add up to more than a 64-bit size. -/
  | count
  /-- The items would take more than `2 ^ 63 - 1` octets. -/
  | storage
deriving DecidableEq, Repr

/-- The wording of an overload. -/
def Overload.message : Overload → String
  | .count => "attempt to add with overflow"
  | .storage => "capacity overflow"

/-- Accepts a number of items, each of `octets` octets, if they can be held together. -/
def checkStorage (octets count : Nat) : Except Overload Unit :=
  if count * octets < 1 <<< 63 then .ok () else .error .storage

/-- Accepts the counts of an expression if their sum is a 64-bit size and as many operands of
sixteen octets can be held. -/
def checkCounts (inputs consts literals : Nat) : Except Overload Unit :=
  if inputs + consts + literals < UInt64.size then checkStorage 16 (inputs + consts + literals)
  else .error .count

/-- A synthesis: draws that may end in an overload.  What has been drawn by then stays drawn. -/
abbrev Synthesis := ExceptT Overload Draw

/-- A flat chain: `operators[i]` stands between `operands[i]` and `operands[i + 1]`. -/
structure Expression where
  operands : List String
  operators : List String
deriving DecidableEq, Repr

namespace Expression

/-- Whether the chain has no operand. -/
def isEmpty (e : Expression) : Bool := e.operands.isEmpty

/-- The operator at the root, if there is one. -/
def rootOperator (e : Expression) : Option String := e.operators.getLast?

/-- The operands after the first, each behind its operator; where operators are missing, operands
follow each other directly. -/
def textAfterFirst : (operands operators : List String) → String
  | [], _ => ""
  | operand :: operands, [] => operand ++ textAfterFirst operands []
  | operand :: operands, operator :: operators =>
    " " ++ operator ++ " " ++ operand ++ textAfterFirst operands operators

/-- The chain as program text, with a space on both sides of every operator. -/
def text (e : Expression) : String :=
  match e.operands with
  | [] => ""
  | first :: operands => first ++ textAfterFirst operands e.operators

/-- `count` entries of a table, picked independently.  An empty table contributes nothing. -/
def drawOperands (table : List String) : (count : Nat) → Draw (List String)
  | 0 => pure []
  | count + 1 => do
    let picked ← Draw.pick table
    let rest ← drawOperands table count
    return picked.toList ++ rest

/-- The operators of `joins` joins: arithmetic ones and at last a comparison. -/
def drawOperators (pool : SymbolPool) : (joins : Nat) → Draw (List String)
  | 0 => pure []
  | 1 => do
    let picked ← Draw.pick pool.comparison
    return picked.toList
  | joins + 2 => do
    let picked ← Draw.pick pool.arithmetic
    let rest ← drawOperators pool (joins + 1)
    return picked.toList ++ rest

/-- The chain made of given numbers of inputs, constants and literals. -/
def drawChain (pool : SymbolPool) (inputs consts literals : Nat) : Draw Expression := do
  let fromInputs ← drawOperands pool.inputs inputs
  let fromConstants ← drawOperands pool.constants consts
  let fromLiterals ← drawOperands pool.literals literals
  let operands ← Draw.shuffle (fromInputs ++ fromConstants ++ fromLiterals)
  let operators ← drawOperators pool (operands.length - 1)
  return ⟨operands, operators⟩

/-- A random expression of the given shape. -/
def synthesize (pool : SymbolPool) (shape : ExpressionShape) : Synthesis Expression := do
  let inputs ← shape.inputVars.sample
  let consts ← shape.constVars.sample
  let literals ← shape.literals.sample
  ExceptT.mk (pure (checkCounts inputs consts literals))
  drawChain pool inputs consts literals

/-- Several expressions of one shape, one after the other. -/
def synthesizeMany (pool : SymbolPool) (shape : ExpressionShape) :
    (count : Nat) → Synthesis (List Expression)
  | 0 => pure []
  | count + 1 => do
    let e ← synthesize pool shape
    let rest ← synthesizeMany pool shape count
    return e :: rest

end Expression

/-- A statement that prints an expression over literals alone. -/
def probeStatement (pool : SymbolPool) (literals : SizeRange) : Synthesis String := do
  let e ← Expression.synthesize pool (.literalsOnly literals)
  return "print(" ++ e.text ++ ");"

/-- Several probe statements, one after the other. -/
def probeStatements (pool : SymbolPool) (literals : SizeRange) :
    (count : Nat) → Synthesis (List String)
  | 0 => pure []
  | count + 1 => do
    let statement ← probeStatement pool literals
    let rest ← probeStatements pool literals count
    return statement :: rest

end EngineFuzz
