import EngineFuzz.Shell.Regex
/-!
# Instructions of the line editor

An editing script is a list of instructions that are carried out on every line of a text.  An
instruction may be meant for some lines only; which ones is said by one address, or by the two
ends of a range.
-/

namespace EngineFuzz.Shell.Edit

open Text (Bytes)

/-- A regular expression, and whether it ignores case. -/
structure Search where
  regex : Regex
  ignoresCase : Bool
deriving Repr

/-- What says that a line is meant. -/
inductive Address where
  | line (number : Nat)
  /-- A line, and every line so many lines further on. -/
  | every (first step : Nat)
  | last
  /-- A line with a match; without an expression the one that was used last is meant. -/
  | matching (search : Option Search)
deriving Repr

/-- What says that a range is over. -/
inductive Extent where
  | upTo (address : Address)
  | lines (count : Nat)
  /-- Up to a line whose number is a multiple. -/
  | multiple (factor : Nat)
deriving Repr

/-- The lines for which an instruction is meant. -/
structure Selection where
  first : Option Address
  extent : Option Extent
  negated : Bool
deriving Repr

/-- A part of what replaces a match. -/
inductive Part where
  | text (octets : Bytes)
  /-- What a group has matched; the group with number zero is the whole match. -/
  | group (number : Nat)
  /-- Changes the case of what follows, by the letter for it. -/
  | convert (letter : Char)
deriving DecidableEq, Repr

/-- A replacement of matches. -/
structure Substitution where
  search : Option Search
  parts : List Part
  /-- The first match that is replaced. -/
  first : Nat
  /-- Whether the matches behind it are replaced as well. -/
  all : Bool
  prints : Bool
  file : Option Bytes
deriving Repr

/-- What is done with a line. -/
inductive Action where
  | block
  | blockEnd
  | label (name : Bytes)
  | number
  | append (text : Bytes)
  | insert (text : Bytes)
  | change (text : Bytes)
  | jump (label : Bytes)
  /-- Jumps if there has been a replacement since the line was read, or if there has been none. -/
  | jumpIf (replaced : Bool) (label : Bytes)
  | delete
  | deleteFirst
  | fromHold
  | appendFromHold
  | toHold
  | appendToHold
  | exchange
  | list
  | next
  | nextAppend
  | print
  | printFirst
  | quit (status : Nat) (prints : Bool)
  | readFile (path : Bytes)
  | writeFile (path : Bytes)
  | writeFirst (path : Bytes)
  | substitute (substitution : Substitution)
  | replaceEach (pairs : List (UInt8 × UInt8))
  | fileName
  | clear
deriving Repr

/-- An instruction. -/
structure Instruction where
  selection : Selection
  action : Action
deriving Repr

/-- The label to which an action jumps, if it jumps to one. -/
def Action.target? : Action → Option Bytes
  | .jump [] | .jumpIf _ [] => none
  | .jump name | .jumpIf _ name => some name
  | _ => none

end EngineFuzz.Shell.Edit
