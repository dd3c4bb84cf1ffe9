import EngineFuzz.Shell.Phrase
/-!
# Arithmetic of the shell

An arithmetic expression is over signed numbers of 64 bits, which wrap around.  A comparison has
the value one or zero, and a number is true unless it is zero.  Where the value of a part cannot
matter the part is not worked out, so what is wrong with it does not show.

* `Arithmetic.parse?` — the expression that a text is;
* `Arithmetic.evaluate` — its value, and the assignments that were made on the way.
-/

namespace EngineFuzz.Shell

open Text (Bytes)

/-- An operation on two numbers. -/
inductive Operation where
  | multiply | divide | remainder | add | subtract | shiftLeft | shiftRight
  | less | atMost | greater | atLeast | equal | unequal
  | bitAnd | bitXor | bitOr
deriving DecidableEq, Repr

namespace Operation

/-- The number that a truth value is. -/
def truth (b : Bool) : Int64 := if b then 1 else 0

/-- The value of an operation; nothing can be divided by zero. -/
def result? (operation : Operation) (a b : Int64) : Option Int64 :=
  match operation with
  | multiply => some (a * b)
  | divide => if b = 0 then none else some (a / b)
  | remainder => if b = 0 then none else some (a % b)
  | add => some (a + b)
  | subtract => some (a - b)
  | shiftLeft => some (a <<< b)
  | shiftRight => some (a >>> b)
  | less => some (truth (a < b))
  | atMost => some (truth (a ≤ b))
  | greater => some (truth (b < a))
  | atLeast => some (truth (b ≤ a))
  | equal => some (truth (a = b))
  | unequal => some (truth (a ≠ b))
  | bitAnd => some (a &&& b)
  | bitXor => some (a ^^^ b)
  | bitOr => some (a ||| b)

/-- The operations by their signs, each with its rank: a higher one binds more tightly. -/
def table : List (String × Nat × Operation) :=
  [("*", 10, multiply), ("/", 10, divide), ("%", 10, remainder), ("+", 9, add),
    ("-", 9, subtract), ("<<", 8, shiftLeft), (">>", 8, shiftRight), ("<", 7, less),
    ("<=", 7, atMost), (">", 7, greater), (">=", 7, atLeast), ("==", 6, equal),
    ("!=", 6, unequal), ("&", 5, bitAnd), ("^", 4, bitXor), ("|", 3, bitOr)]

/-- The operation that goes with an assignment, by the sign of the assignment. -/
def assigning : List (String × Option Operation) :=
  [("=", none), ("*=", some multiply), ("/=", some divide), ("%=", some remainder),
    ("+=", some add), ("-=", some subtract), ("<<=", some shiftLeft), (">>=", some shiftRight),
    ("&=", some bitAnd), ("^=", some bitXor), ("|=", some bitOr)]

end Operation

/-- An arithmetic expression. -/
inductive Arithmetic where
  | number (value : Int64)
  | named (name : Bytes)
  | negative (a : Arithmetic)
  | complement (a : Arithmetic)
  | negation (a : Arithmetic)
  | binary (operation : Operation) (a b : Arithmetic)
  | both (a b : Arithmetic)
  | either (a b : Arithmetic)
  | choice (condition yes no : Arithmetic)
  | assign (name : Bytes) (operation : Option Operation) (a : Arithmetic)

namespace Arithmetic

/-- What an expression is made of. -/
inductive Lexeme where
  | number (value : Int64)
  | name (octets : Bytes)
  | sign (text : String)
deriving DecidableEq, Repr

/-- The signs, a longer one before its beginnings. -/
def signs : List String :=
  ["<<=", ">>=", "<<", ">>", "<=", ">=", "==", "!=", "&&", "||", "*=", "/=", "%=", "+=", "-=",
    "&=", "^=", "|=", "*", "/", "%", "+", "-", "<", ">", "&", "^", "|", "!", "~", "(", ")", "?",
    ":", "="]

/-- The value of a digit. -/
def digit (octet : UInt8) : Nat :=
  if 0x30 ≤ octet && octet ≤ 0x39 then octet.toNat - 0x30
  else if 0x61 ≤ octet && octet ≤ 0x66 then octet.toNat - 0x57
  else if 0x41 ≤ octet && octet ≤ 0x46 then octet.toNat - 0x37
  else 16

/-- The number that digits stand for; one that is too great becomes the greatest. -/
def valueOf (base : Nat) (digits : Bytes) : Nat :=
  min (digits.foldl (fun n b => base * n + digit b) 0) (Nat.pow 2 63 - 1)

/-- The number without a sign at the head, and what is left.  A zero in front means base eight,
and an "x" behind it base sixteen. -/
def number? (octets : Bytes) : Option (Nat × Bytes) :=
  let read (base : Nat) (octets : Bytes) : Nat × Bytes :=
    let digits := octets.takeWhile fun b => digit b < base
    (valueOf base digits, octets.drop digits.length)
  match octets with
  | 0x30 :: x :: d :: rest =>
    if (x = 0x78 || x = 0x58) && digit d < 16 then some (read 16 (d :: rest))
      else some (read 8 octets)
  | b :: _ => if 0x30 ≤ b && b ≤ 0x39 then some (read (if b = 0x30 then 8 else 10) octets) else none
  | [] => none

/-- Whether an octet is white space. -/
def isGap (b : UInt8) : Bool := b = 0x20 || (0x09 ≤ b && b ≤ 0x0d)

/-- Whether an octet can stand in a name. -/
def isNamePart (b : UInt8) : Bool :=
  b = 0x5f || (0x30 ≤ b && b ≤ 0x39) || (0x41 ≤ b && b ≤ 0x5a) || (0x61 ≤ b && b ≤ 0x7a)

/-- The number that the value of a variable is.  No text is zero, and white space around does not
count. -/
def ofText? (octets : Bytes) : Option Int64 :=
  match octets.dropWhile isGap with
  | [] => some 0
  | sign :: rest =>
    let signed := sign = 0x2d || sign = 0x2b
    match number? (if signed then rest else sign :: rest) with
    | some (n, rest) =>
      if (rest.dropWhile isGap).isEmpty then
        some (if sign = 0x2d then -(Int64.ofNat n) else Int64.ofNat n)
      else none
    | none => none

/-- The lexemes of a text.  The bound is its length; what is no lexeme becomes a sign of its own. -/
def lexemes : (bound : Nat) → Bytes → List Lexeme
  | 0, _ => []
  | _ + 1, [] => []
  | bound + 1, b :: rest =>
    if isGap b then lexemes bound rest
    else match number? (b :: rest) with
      | some (n, left) => .number (Int64.ofNat n) :: lexemes bound left
      | none =>
        if isNamePart b then
          .name ((b :: rest).takeWhile isNamePart) ::
            lexemes bound ((b :: rest).dropWhile isNamePart)
        else
          match signs.find? fun sign => (Text.bytesOf sign).isPrefixOf (b :: rest) with
          | some sign => .sign sign :: lexemes bound ((b :: rest).drop sign.utf8ByteSize)
          | none => .sign "" :: lexemes bound rest

/-- An expression and what is left behind it, or what is missing. -/
abbrev Reader := List Lexeme → Except String (Arithmetic × List Lexeme)

mutual

/-- Reads an expression that may be an assignment. -/
def assignment : (bound : Nat) → Reader
  | 0, _ => .error "too deep"
  | bound + 1, lexemes =>
    match lexemes with
    | .name name :: .sign sign :: rest =>
      match Operation.assigning.lookup sign with
      | some operation => do
        let (a, left) ← assignment bound rest
        return (.assign name operation a, left)
      | none => conditional bound lexemes
    | _ => conditional bound lexemes

/-- Reads an expression that may be a choice. -/
def conditional : (bound : Nat) → Reader
  | 0, _ => .error "too deep"
  | bound + 1, lexemes => do
    let (condition, left) ← disjunction bound lexemes
    match left with
    | .sign "?" :: left => do
      let (yes, left) ← assignment bound left
      match left with
      | .sign ":" :: left => do
        let (no, left) ← conditional bound left
        return (.choice condition yes no, left)
      | _ => .error "expecting ':'"
    | left => return (condition, left)

/-- Reads conjunctions that are joined by "or". -/
def disjunction : (bound : Nat) → Reader
  | 0, _ => .error "too deep"
  | bound + 1, lexemes => do
    let (first, left) ← conjunction bound lexemes
    match left with
    | .sign "||" :: left => do
      let (second, left) ← disjunction bound left
      return (.either first second, left)
    | left => return (first, left)

/-- Reads operands that are joined by "and". -/
def conjunction : (bound : Nat) → Reader
  | 0, _ => .error "too deep"
  | bound + 1, lexemes => do
    let (first, left) ← operand bound lexemes
    let (first, left) ← operations bound first 3 left
    match left with
    | .sign "&&" :: left => do
      let (second, left) ← conjunction bound left
      return (.both first second, left)
    | left => return (first, left)

/-- Reads operations of at least the given rank behind their first operand. -/
def operations : (bound : Nat) → (first : Arithmetic) → (rank : Nat) → Reader
  | 0, _, _, _ => .error "too deep"
  | bound + 1, first, rank, lexemes =>
    match lexemes with
    | .sign sign :: rest =>
      match Operation.table.lookup sign with
      | some (higher, operation) =>
        if rank ≤ higher then do
          let (second, left) ← operand bound rest
          let (second, left) ← operations bound second (higher + 1) left
          operations bound (.binary operation first second) rank left
        else return (first, lexemes)
      | none => return (first, lexemes)
    | _ => return (first, lexemes)

/-- Reads a number, a name, an expression in parentheses or one of these behind a sign. -/
def operand : (bound : Nat) → Reader
  | 0, _ => .error "too deep"
  | bound + 1, lexemes =>
    match lexemes with
    | .number n :: left => return (.number n, left)
    | .name name :: left => return (.named name, left)
    | .sign "(" :: rest => do
      let (a, left) ← assignment bound rest
      match left with
      | .sign ")" :: left => return (a, left)
      | _ => .error "expecting ')'"
    | .sign "+" :: rest => operand bound rest
    | .sign "-" :: rest => do
      let (a, left) ← operand bound rest
      return (.negative a, left)
    | .sign "~" :: rest => do
      let (a, left) ← operand bound rest
      return (.complement a, left)
    | .sign "!" :: rest => do
      let (a, left) ← operand bound rest
      return (.negation a, left)
    | _ => .error "expecting primary"

end

/-- The expression that a text is, or what is missing. -/
def parse? (octets : Bytes) : Except String Arithmetic := do
  let (a, left) ← assignment (8 * octets.length + 64) (lexemes octets.length octets)
  if left.isEmpty then return a else .error "expecting EOF"

/-- What is wrong with an expression that can be read. -/
inductive Fault where
  | divisionByZero
  /-- The value of a variable is no number. -/
  | illegal (value : Bytes)
deriving DecidableEq, Repr

/-- Variables with the values they have been given, the latest first. -/
abbrev Assignments := List (Bytes × Int64)

/-- The value of an expression and the assignments that it makes.  `lookup` gives the text of a
variable. -/
def evaluate (lookup : Bytes → Bytes) : Arithmetic → Assignments →
    Except Fault (Int64 × Assignments)
  | .number value, made => .ok (value, made)
  | .named name, made =>
    match made.lookup name with
    | some value => .ok (value, made)
    | none =>
      match ofText? (lookup name) with
      | some value => .ok (value, made)
      | none => .error (.illegal (lookup name))
  | .negative a, made => do
    let (x, made) ← evaluate lookup a made
    return (-x, made)
  | .complement a, made => do
    let (x, made) ← evaluate lookup a made
    return (~~~x, made)
  | .negation a, made => do
    let (x, made) ← evaluate lookup a made
    return (Operation.truth (x = 0), made)
  | .binary operation a b, made => do
    let (x, made) ← evaluate lookup a made
    let (y, made) ← evaluate lookup b made
    match operation.result? x y with
    | some value => return (value, made)
    | none => .error .divisionByZero
  | .both a b, made => do
    let (x, made) ← evaluate lookup a made
    if x = 0 then return (0, made)
    let (y, made) ← evaluate lookup b made
    return (Operation.truth (y ≠ 0), made)
  | .either a b, made => do
    let (x, made) ← evaluate lookup a made
    if x ≠ 0 then return (1, made)
    let (y, made) ← evaluate lookup b made
    return (Operation.truth (y ≠ 0), made)
  | .choice condition yes no, made => do
    let (x, made) ← evaluate lookup condition made
    if x ≠ 0 then evaluate lookup yes made else evaluate lookup no made
  | .assign name operation a, made => do
    match operation with
    | none => do
      let (y, made) ← evaluate lookup a made
      return (y, (name, y) :: made)
    | some operation => do
      let before ← match made.lookup name with
        | some value => pure value
        | none =>
          match ofText? (lookup name) with
          | some value => pure value
          | none => .error (.illegal (lookup name))
      let (y, made) ← evaluate lookup a made
      match operation.result? before y with
      | some value => return (value, (name, value) :: made)
      | none => .error .divisionByZero

end Arithmetic

end EngineFuzz.Shell
