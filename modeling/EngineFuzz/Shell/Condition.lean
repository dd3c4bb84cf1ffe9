import EngineFuzz.Shell.Arithmetic
import EngineFuzz.Shell.Machine
/-!
# Conditions of the shell

A condition is made of tests of one operand or two, which can be negated, put in parentheses and
joined by "and" and "or".  Whether a word is a test or an operand depends on the words behind
it.
-/

namespace EngineFuzz.Shell

open Text (Bytes)

namespace Condition

/-- The tests of one operand. -/
def unaryTests : List String :=
  ["-r", "-w", "-x", "-e", "-f", "-d", "-c", "-b", "-p", "-u", "-g", "-k", "-s", "-t", "-z", "-n",
    "-O", "-G", "-L", "-h", "-S"]

/-- The tests of two operands. -/
def binaryTests : List String :=
  ["=", "!=", "<", ">", "-eq", "-ne", "-gt", "-ge", "-lt", "-le", "-nt", "-ot", "-ef"]

/-- Whether a word is one of some texts. -/
def isOneOf (texts : List String) (word : Bytes) : Bool := texts.any fun text => ascii text = word

/-- Whether a word is a sign of the language of conditions. -/
def isSign (word : Bytes) : Bool :=
  isOneOf unaryTests word || isOneOf binaryTests word || isOneOf ["(", ")", "!", "-a", "-o"] word

/-- Whether the first word is an operand, in view of those behind it. -/
def isOperand : List Bytes → Bool
  | [] => false
  | word :: rest =>
    if isOneOf unaryTests word then
      match rest with
      | [] => true
      | second :: _ :: _ => isOneOf binaryTests second
      | _ => false
    else if word = ascii "(" then rest.isEmpty
    else !isSign word

/-- What a condition says, the words that are left, or what is wrong with it. -/
abbrev Result := Except Bytes (Bool × List Bytes)

/-- The number that a word is. -/
def number (word : Bytes) : Except Bytes Int :=
  match Arithmetic.ofText? word with
  | some n => if word.all Arithmetic.isGap then .error (ascii "Illegal number: " ++ word)
    else .ok n.toInt
  | none => .error (ascii "Illegal number: " ++ word)

/-- What a test of one operand says. -/
def unary (files : FileTree) (name operand : Bytes) : Bool :=
  let path : Path := ⟨operand⟩
  if name = ascii "-n" then operand ≠ []
  else if name = ascii "-z" then operand = []
  else if name = ascii "-f" then files.isFile path
  else if name = ascii "-d" then files.isDirectory path
  else if name = ascii "-s" then
    match files.read path with
    | .ok content => content ≠ []
    | .error _ => files.isDirectory path
  else if name = ascii "-x" then files.isDirectory path
  else if isOneOf ["-e", "-r", "-w", "-O", "-G"] name then files.holds path
  else false

/-- What a test of two operands says. -/
def binary (files : FileTree) (first name second : Bytes) : Except Bytes Bool := do
  let compare (relation : Int → Int → Bool) : Except Bytes Bool := do
    return relation (← number first) (← number second)
  match Text.lossy name with
  | "=" => return first = second
  | "!=" => return first ≠ second
  | "<" => return precedes first second
  | ">" => return precedes second first
  | "-eq" => compare fun a b => a = b
  | "-ne" => compare fun a b => a ≠ b
  | "-gt" => compare fun a b => b < a
  | "-ge" => compare fun a b => b ≤ a
  | "-lt" => compare fun a b => a < b
  | "-le" => compare fun a b => a ≤ b
  | "-ef" =>
    match files.resolve ⟨first⟩, files.resolve ⟨second⟩ with
    | .ok a, .ok b => return a = b
    | _, _ => return false
  | _ => return false

mutual

/-- Conditions joined by "or". -/
def disjunction (files : FileTree) : (bound : Nat) → List Bytes → Result
  | 0, words => .ok (false, words)
  | bound + 1, words => do
    let (first, left) ← conjunction files bound words
    match left with
    | sign :: rest =>
      if sign = ascii "-o" && !isOperand left then
        let (second, left) ← disjunction files bound rest
        return (first || second, left)
      else return (first, left)
    | [] => return (first, [])

/-- Conditions joined by "and". -/
def conjunction (files : FileTree) : (bound : Nat) → List Bytes → Result
  | 0, words => .ok (false, words)
  | bound + 1, words => do
    let (first, left) ← negation files bound words
    match left with
    | sign :: rest =>
      if sign = ascii "-a" && !isOperand left then
        let (second, left) ← conjunction files bound rest
        return (first && second, left)
      else return (first, left)
    | [] => return (first, [])

/-- A condition that may be negated. -/
def negation (files : FileTree) : (bound : Nat) → List Bytes → Result
  | 0, words => .ok (false, words)
  | bound + 1, words =>
    match words with
    | sign :: rest =>
      if sign = ascii "!" then
        if rest = [] then .ok (true, [])
        else do
          let (value, left) ← negation files bound rest
          return (!value, left)
      else primary files bound words
    | [] => .ok (false, [])

/-- A test, an operand or a condition in parentheses. -/
def primary (files : FileTree) : (bound : Nat) → List Bytes → Result
  | 0, words => .ok (false, words)
  | bound + 1, words =>
    match words with
    | [] => .ok (false, [])
    | first :: rest =>
      if first = ascii "(" && !isOperand words then
        if rest.head? = some (ascii ")") then .ok (false, rest.tail)
        else do
          let (value, left) ← disjunction files bound rest
          if left.head? = some (ascii ")") then return (value, left.tail)
          else throw (ascii "closing paren expected")
      else if isOneOf unaryTests first && !isOperand words then
        match rest with
        | operand :: left => .ok (unary files first operand, left)
        | [] => .error (first ++ ascii ": argument expected")
      else
        match rest with
        | name :: second :: left =>
          if isOneOf binaryTests name then do return (← binary files first name second, left)
          else .ok (first ≠ [], rest)
        | [name] =>
          if isOneOf binaryTests name then .error (name ++ ascii ": argument expected")
          else .ok (first ≠ [], rest)
        | [] => .ok (first ≠ [], [])

end

/-- What words say as a condition, of which a few have rules of their own. -/
def judge (files : FileTree) (words : List Bytes) : Except Bytes Bool := do
  let whole (words : List Bytes) : Except Bytes Bool := do
    let (value, left) ← disjunction files (4 * words.length + 8) words
    let taken := words.take (words.length - left.length)
    if left = [] then return value
    else throw ((taken.getLast?).getD [] ++ ascii ": unexpected operator")
  let few (words : List Bytes) : Except Bytes Bool := do
    match words with
    | [] => return false
    | [first, name, second] =>
      if isOneOf binaryTests name then binary files first name second
      else if first = ascii "(" && second = ascii ")" then whole [name]
      else whole words
    | [first, second, third, last] =>
      if first = ascii "(" && last = ascii ")" then whole [second, third] else whole words
    | _ => whole words
  match words with
  | [first, name, second] =>
    if !isOneOf binaryTests name && first = ascii "!" then return !(← few [name, second])
      else few words
  | [first, second, third, last] =>
    if first = ascii "!" then return !(← few [second, third, last]) else few words
  | _ => few words

end Condition

end EngineFuzz.Shell
