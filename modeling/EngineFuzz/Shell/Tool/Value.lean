import EngineFuzz.Shell.Regex
import EngineFuzz.Shell.Tool.Given
/-!
# Values of expressions

The tool that computes with its arguments, each of which is an operand or an operator.  A value
is text; where a number is wanted the text has to be one.
-/

namespace EngineFuzz.Shell.Tool

open Text (Bytes)

/-- Reading on in the arguments, which are left beside the one that was taken last.  A complaint
is text. -/
abbrev Reckoning := StateT (List Bytes × Bytes) (Except Bytes)

namespace Reckoning

/-- The number that a value is. -/
def integerOf? (value : Bytes) : Option Int :=
  match value with
  | 0x2d :: digits => (number? digits).map fun n => -(n : Int)
  | digits => (number? digits).map fun n => (n : Int)

/-- Whether a value is nothing or zero. -/
def isNull (value : Bytes) : Bool :=
  value = [] || (let digits := if value.head? = some 0x2d then value.tail else value
    digits ≠ [] && digits.all (· = 0x30))

/-- The value for a truth. -/
def truth (b : Bool) : Bytes := if b then ascii "1" else ascii "0"

/-- The value for a number. -/
def shown (n : Int) : Bytes := ascii (toString n)

/-- Takes an argument if it comes next. -/
def accept (word : String) : Reckoning Bool := do
  match (← get).1 with
  | arg :: args =>
    if arg = ascii word then
      set (args, arg)
      return true
    else return false
  | [] => return false

/-- Takes the first of some arguments that comes next. -/
def acceptAny : List String → Reckoning (Option String)
  | [] => pure none
  | word :: words => do if ← accept word then return some word else acceptAny words

/-- Takes the next argument, whatever it is. -/
def take : Reckoning Bytes := do
  let (args, last) ← get
  match args with
  | arg :: args =>
    set (args, arg)
    return arg
  | [] => throw (ascii "syntax error: missing argument after " ++ quoted last)

/-- The number that a value has to be. -/
def wanted (value : Bytes) : Reckoning Int :=
  match integerOf? value with
  | some n => pure n
  | none => throw (ascii "non-integer argument")

/-- What an expression matches at the head of a value: its first group, or else how many octets. -/
def matched (value pattern : Bytes) : Reckoning Bytes :=
  match Regex.parse false pattern with
  | .error text => throw (ascii text)
  | .ok regex =>
    let isAnchored := match pattern with
      | 0x5e :: rest => rest
      | pattern => pattern
    let regex := (Regex.parse false isAnchored).toOption.getD regex
    let hasGroup := regex.groups ≠ 0
    match regex.matchAt? false value.toArray 0 with
    | some found =>
      if hasGroup then pure (match found.groups.lookup 1 with
        | some (start, stop) => (value.take stop).drop start
        | none => [])
      else pure (decimal found.stop)
    | none => pure (if hasGroup then [] else ascii "0")

/-- The value of an operation on numbers or texts. -/
def operate (operator : String) (a b : Bytes) : Reckoning Bytes := do
  let compared (text : Bool) (number : Int → Int → Bool) : Bytes :=
    match integerOf? a, integerOf? b with
    | some x, some y => truth (number x y)
    | _, _ => truth text
  match operator with
  | "=" | "==" => return compared (a = b) fun x y => x = y
  | "!=" => return compared (a ≠ b) fun x y => x ≠ y
  | "<" => return compared (precedes a b) fun x y => x < y
  | ">" => return compared (precedes b a) fun x y => y < x
  | "<=" => return compared (!precedes b a) fun x y => x ≤ y
  | ">=" => return compared (!precedes a b) fun x y => y ≤ x
  | "+" => return shown ((← wanted a) + (← wanted b))
  | "-" => return shown ((← wanted a) - (← wanted b))
  | "*" => return shown ((← wanted a) * (← wanted b))
  | _ =>
    let x ← wanted a
    let y ← wanted b
    if y = 0 then throw (ascii "division by zero")
    return shown (if operator = "/" then x.tdiv y else x.tmod y)

/-- The operators that are carried out on both values, the ones that bind least first. -/
def levels : List (List String) :=
  [["<=", "<", "==", "=", "!=", ">=", ">"], ["+", "-"], ["*", "/", "%"]]

mutual

/-- The value of an expression.  What is not `wanted` is read, and nothing is computed. -/
def value : (bound : Nat) → (isWanted : Bool) → Reckoning Bytes
  | 0, _ => throw (ascii "syntax error")
  | bound + 1, isWanted => do
    let first ← conjunction bound isWanted
    alternatives bound isWanted first

/-- The rest of alternatives behind a value. -/
def alternatives : (bound : Nat) → (isWanted : Bool) → (first : Bytes) → Reckoning Bytes
  | 0, _, first => pure first
  | bound + 1, isWanted, first => do
    if ← accept "|" then
      let second ← conjunction bound (isWanted && isNull first)
      let both := if !isNull first then first else if isNull second then ascii "0" else second
      alternatives bound isWanted both
    else return first

/-- Values all of which count. -/
def conjunction : (bound : Nat) → (isWanted : Bool) → Reckoning Bytes
  | 0, _ => throw (ascii "syntax error")
  | bound + 1, isWanted => do
    let first ← operation bound isWanted levels
    conjuncts bound isWanted first

/-- The rest of values all of which count. -/
def conjuncts : (bound : Nat) → (isWanted : Bool) → (first : Bytes) → Reckoning Bytes
  | 0, _, first => pure first
  | bound + 1, isWanted, first => do
    if ← accept "&" then
      let second ← operation bound (isWanted && !isNull first) levels
      conjuncts bound isWanted (if isNull first || isNull second then ascii "0" else first)
    else return first

/-- Values that are joined by operators. -/
def operation : (bound : Nat) → (isWanted : Bool) → (levels : List (List String)) → Reckoning Bytes
  | 0, _, _ => throw (ascii "syntax error")
  | bound + 1, isWanted, [] => do
    let first ← single bound isWanted
    comparisons bound isWanted first
  | bound + 1, isWanted, level :: levels => do
    let first ← operation bound isWanted levels
    operations bound isWanted level levels first

/-- The rest of values that are joined by the operators of a level. -/
def operations : (bound : Nat) → (isWanted : Bool) → (level : List String) →
    (levels : List (List String)) → (first : Bytes) → Reckoning Bytes
  | 0, _, _, _, first => pure first
  | bound + 1, isWanted, level, levels, first => do
    match ← acceptAny level with
    | some operator => do
      let second ← operation bound isWanted levels
      let both ← if isWanted then operate operator first second else pure first
      operations bound isWanted level levels both
    | none => return first

/-- The rest of values that are matched. -/
def comparisons : (bound : Nat) → (isWanted : Bool) → (first : Bytes) → Reckoning Bytes
  | 0, _, first => pure first
  | bound + 1, isWanted, first => do
    if ← accept ":" then
      let pattern ← single bound isWanted
      let both ← if isWanted then matched first pattern else pure first
      comparisons bound isWanted both
    else return first

/-- One value, or an operation that is written as a word before its values. -/
def single : (bound : Nat) → (isWanted : Bool) → Reckoning Bytes
  | 0, _ => throw (ascii "syntax error")
  | bound + 1, isWanted => do
    if ← accept "+" then take
    else if ← accept "length" then
      let text ← single bound isWanted
      return decimal text.length
    else if ← accept "match" then
      let text ← single bound isWanted
      let pattern ← single bound isWanted
      if isWanted then matched text pattern else return text
    else if ← accept "index" then
      let text ← single bound isWanted
      let octets ← single bound isWanted
      return match text.findIdx? octets.contains with
        | some index => decimal (index + 1)
        | none => ascii "0"
    else if ← accept "substr" then
      let text ← single bound isWanted
      let place ← single bound isWanted
      let count ← single bound isWanted
      match integerOf? place, integerOf? count with
      | some place, some count =>
        if place ≤ 0 || count ≤ 0 then return []
        else return (text.drop (place.toNat - 1)).take count.toNat
      | _, _ => return []
    else primary bound isWanted

/-- A value, or an expression between parentheses. -/
def primary : (bound : Nat) → (isWanted : Bool) → Reckoning Bytes
  | 0, _ => throw (ascii "syntax error")
  | bound + 1, isWanted => do
    let arg ← take
    if arg = ascii "(" then
      let inner ← value bound isWanted
      let (args, last) ← get
      match args with
      | [] => throw (ascii "syntax error: expecting ')' after " ++ quoted last)
      | next :: rest =>
        if next = ascii ")" then
          set (rest, next)
          return inner
        else throw (ascii "syntax error: expecting ')' instead of " ++ quoted next)
    else if arg = ascii ")" then throw (ascii "syntax error: unexpected ')'")
    else return arg

end

end Reckoning

/-- Writes the value of an expression; nothing and zero count as failures. -/
def expr : Utility := fun args => do
  let args := if args.head? = some (ascii "--") then args.tail else args
  if args = [] then misuse "expr" 2 (ascii "missing operand")
  else match (Reckoning.value (16 * args.length + 16) true).run (args, []) with
    | .error text =>
      complainOf "expr" text
      finish 2
    | .ok (_, extra :: _, _) =>
      complainOf "expr" (ascii "syntax error: unexpected argument " ++ quoted extra)
      finish 2
    | .ok (value, [], _) =>
      emit (value ++ [0x0a])
      finish (if Reckoning.isNull value then 1 else 0)

end EngineFuzz.Shell.Tool
