import EngineFuzz.Expression
import EngineFuzz.Text.Lines
/-!
# Random programs

A synthesized program declares a fixed set of inputs and constants and then has a number of
conditional blocks, each guarded by a random expression and printing a tag of its own.  A block
takes four lines, so the line of every block is known without reading the text.
-/

namespace EngineFuzz

open Randomness

/-- How many blocks a program has, and what their guards look like. -/
structure ProgramShape where
  blocks : SizeRange
  guardShape : ExpressionShape
deriving DecidableEq, Repr

/-- One guarded block, and the 1-based line on which it begins. -/
structure ConditionalBlock where
  condition : Expression
  tag : String
  line : Nat
deriving DecidableEq, Repr

/-- A synthesized program is its list of blocks; all else in its text is fixed. -/
structure Program where
  blocks : List ConditionalBlock
deriving DecidableEq, Repr

namespace Program

/-- The lines in front of the blocks, which declare every variable of the standard pool with a
value. -/
def preambleLines : List String :=
  ["//--------------------------------Inputs----------------------------------------",
    "",
    "var input_number_integer = 5; // input",
    "var input_number_real = 6.7; // input",
    "var input_boolean = true; // input",
    "var input_string = 'abc'; // input",
    "",
    "//-------------------------------Constants--------------------------------------",
    "",
    "var const_null = null;",
    "var const_undefined = undefined;",
    "var const_nan = NaN;",
    "var const_pos_infinity = Infinity;",
    "var const_neg_infinity = -Infinity;",
    "var const_number_integer = 7;",
    "var const_number_real = 9.877;",
    "var const_boolean = false;",
    "var const_string = 'halelulja';",
    "",
    "//------------------------------Conditions--------------------------------------",
    ""]

/-- The text in front of the blocks. -/
def preamble : String := String.join (preambleLines.map (· ++ "\n"))

/-- The lines of a block: the condition, the body, the closing brace and a blank line. -/
def blockLines : Nat := 4

/-- The number of the line behind a text. -/
def lineBehind (text : String) : Nat := (Text.newlineLines text.toList).length + 1

/-- The line of the first block, which follows the preamble. -/
def firstBlockLine : Nat := lineBehind preamble

/-- The text of a block. -/
def blockText (block : ConditionalBlock) : String :=
  "if (" ++ block.condition.text ++ r") {" ++ "\n\tprint('" ++ block.tag ++ "');\n" ++
    r"}" ++ "\n\n"

/-- The text of the program. -/
def source (program : Program) : String :=
  preamble ++ String.join (program.blocks.map blockText)

/-- The tag of the block with the given 0-based number. -/
def tagOf (index : Nat) : String := s!"Got me, {index}!"

/-- `count` blocks, numbered from `index` on. -/
def drawBlocks (pool : SymbolPool) (shape : ExpressionShape) (index : Nat) :
    (count : Nat) → Synthesis (List ConditionalBlock)
  | 0 => pure []
  | count + 1 => do
    let condition ← Expression.synthesize pool shape
    let rest ← drawBlocks pool shape (index + 1) count
    return ⟨condition, tagOf index, firstBlockLine + index * blockLines⟩ :: rest

/-- A random program of the given shape.  A block takes eighty octets. -/
def synthesize (pool : SymbolPool) (shape : ProgramShape) : Synthesis Program := do
  let count ← shape.blocks.sample
  ExceptT.mk (pure (checkStorage 80 count))
  let blocks ← drawBlocks pool shape.guardShape 0 count
  return ⟨blocks⟩

end Program

end EngineFuzz
