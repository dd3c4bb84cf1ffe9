import EngineFuzz.Shell.Pattern
/-!
# Regular expressions over octets

A regular expression is matched at the first place of a text where it can be, and there as far
as it can be.  Expressions are written in one of two notations: in the basic one parentheses,
braces and a few other signs are plain characters unless a backslash stands before them, and in
the extended one it is the other way round.

* `Regex.parse` — the expression that octets are in a notation;
* `Regex.find?` — the first and longest match from a place on, with what its groups have matched.
-/

namespace EngineFuzz.Shell

open Text (Bytes)

/-- A regular expression. -/
inductive Regex where
  | nothing
  /-- One octet inside, or outside, some intervals. -/
  | choice (outside : Bool) (intervals : List (UInt8 × UInt8))
  | anyOctet
  /-- The start, or the end, of the text. -/
  | edge (atStart : Bool)
  /-- The start, or the end, of a word; both if neither is said. -/
  | wordEdge (atStart : Option Bool)
  | group (number : Nat) (inner : Regex)
  /-- What a group has matched. -/
  | again (number : Nat)
  | sequence (first second : Regex)
  | either (first second : Regex)
  | repeated (least : Nat) (most : Option Nat) (inner : Regex)
deriving Repr

namespace Regex

/-- A place in a text, and the places between which groups have matched, the latest first. -/
structure Place where
  offset : Nat
  groups : List (Nat × Nat × Nat)
deriving DecidableEq, Repr

/-- Whether an octet belongs to a word. -/
def isWordOctet (b : UInt8) : Bool :=
  b = 0x5f || (0x30 ≤ b && b ≤ 0x39) || (0x41 ≤ b && b ≤ 0x5a) || (0x61 ≤ b && b ≤ 0x7a)

/-- An octet without its case. -/
def lower (b : UInt8) : UInt8 := if 0x41 ≤ b && b ≤ 0x5a then b + 0x20 else b

/-- An octet with the opposite case. -/
def opposite (b : UInt8) : UInt8 :=
  if 0x41 ≤ b && b ≤ 0x5a then b + 0x20 else if 0x61 ≤ b && b ≤ 0x7a then b - 0x20 else b

/-- The places from which nothing of a list leads on differently. -/
def distinct (places : List Place) : List Place := places.eraseDups

/-- The places that rounds of a step lead to, more rounds first.  Every round gets on in the
text, so the bound is one more than its length. -/
def rounds (step : Place → List Place) :
    (bound least : Nat) → (most : Option Nat) → Place → List Place
  | 0, _, _, _ => []
  | bound + 1, least, most, place =>
    let more := if most = some 0 then [] else
      (step place).flatMap fun next =>
        if next.offset = place.offset && least = 0 then []
        else rounds step bound (least - 1) (most.map (· - 1)) next
    distinct (if least = 0 then more ++ [place] else more)

/-- The places to which an expression leads from a place, the preferred ones first. -/
def ways (ignoresCase : Bool) (text : Array UInt8) : Regex → Place → List Place
  | nothing, place => [place]
  | choice outside intervals, place =>
    match text[place.offset]? with
    | some b =>
      let within (b : UInt8) : Bool := PatternPart.chosen false intervals b
      let isWithin := within b || (ignoresCase && within (opposite b))
      if isWithin != outside then [{ place with offset := place.offset + 1 }] else []
    | none => []
  | anyOctet, place =>
    if place.offset < text.size then [{ place with offset := place.offset + 1 }] else []
  | edge atStart, place =>
    if (if atStart then place.offset = 0 else place.offset = text.size) then [place] else []
  | wordEdge atStart, place =>
    let before := place.offset ≠ 0 && text[place.offset - 1]?.any isWordOctet
    let behind := text[place.offset]?.any isWordOctet
    let holds := match atStart with
      | some true => !before && behind
      | some false => before && !behind
      | none => before != behind
    if holds then [place] else []
  | group number inner, place =>
    (ways ignoresCase text inner place).map fun next =>
      { next with groups := (number, place.offset, next.offset) :: next.groups }
  | again number, place =>
    match place.groups.lookup number with
    | some (start, stop) =>
      let wanted := text.extract start stop
      let found := text.extract place.offset (place.offset + wanted.size)
      let alike := if ignoresCase then wanted.map lower == found.map lower else wanted == found
      if alike then [{ place with offset := place.offset + wanted.size }] else []
    | none => []
  | sequence first second, place =>
    distinct ((ways ignoresCase text first place).flatMap (ways ignoresCase text second))
  | either first second, place =>
    distinct (ways ignoresCase text first place ++ ways ignoresCase text second place)
  | repeated least most inner, place =>
    rounds (ways ignoresCase text inner) (text.size + least + 2) least most place

/-- A match: where it starts and stops, and where its groups do. -/
structure Match where
  start : Nat
  stop : Nat
  groups : List (Nat × Nat × Nat)
deriving DecidableEq, Repr

/-- The longest match at a place. -/
def matchAt? (regex : Regex) (ignoresCase : Bool) (text : Array UInt8) (start : Nat) :
    Option Match :=
  (ways ignoresCase text regex ⟨start, []⟩).foldl (fun best place =>
    match best with
    | some found =>
      if found.stop < place.offset then some ⟨start, place.offset, place.groups⟩ else best
    | none => some ⟨start, place.offset, place.groups⟩) none

/-- The first and longest match from a place on.  The bound is the number of places. -/
def findFrom (regex : Regex) (ignoresCase : Bool) (text : Array UInt8) :
    (bound : Nat) → (start : Nat) → Option Match
  | 0, _ => none
  | bound + 1, start =>
    match regex.matchAt? ignoresCase text start with
    | some found => some found
    | none => if text.size ≤ start then none else findFrom regex ignoresCase text bound (start + 1)

/-- The first and longest match from a place on. -/
def find? (regex : Regex) (ignoresCase : Bool) (text : Bytes) (start : Nat) : Option Match :=
  regex.findFrom ignoresCase text.toArray (text.length + 1) start

/-- The number of groups in an expression. -/
def groups : Regex → Nat
  | group _ inner => inner.groups + 1
  | sequence first second | either first second => first.groups + second.groups
  | repeated _ _ inner => inner.groups
  | _ => 0

/-- The expression that matches octets as they are. -/
def literal (octets : Bytes) : Regex :=
  octets.foldr (fun b rest => .sequence (.choice false [(b, b)]) rest) .nothing

/-! ### Notation -/

/-- The octets that a letter behind a backslash stands for. -/
def classLetter? (letter : UInt8) : Option Regex :=
  let word : List (UInt8 × UInt8) := [(0x30, 0x39), (0x41, 0x5a), (0x5f, 0x5f), (0x61, 0x7a)]
  let space : List (UInt8 × UInt8) := [(0x09, 0x0d), (0x20, 0x20)]
  match Char.ofNat letter.toNat with
  | 'w' => some (.choice false word)
  | 'W' => some (.choice true word)
  | 's' => some (.choice false space)
  | 'S' => some (.choice true space)
  | 'b' => some (.wordEdge none)
  | '<' => some (.wordEdge (some true))
  | '>' => some (.wordEdge (some false))
  | _ => none

/-- A sign of a notation. -/
inductive Sign where
  | plain (octet : UInt8)
  | opening
  | close
  | bar
  | star
  | plus
  | question
  | brace
deriving DecidableEq, Repr

/-- What comes next in a notation, and what is left behind it. -/
def sign (extended : Bool) : Bytes → Option (Sign × Bytes)
  | [] => none
  | 0x5c :: b :: rest =>
    let meant := if extended then none else
      [(0x28, Sign.opening), (0x29, Sign.close), (0x7c, Sign.bar), (0x2b, Sign.plus),
        (0x3f, Sign.question), (0x7b, Sign.brace)].lookup b
    some (meant.getD (.plain b), rest)
  | b :: rest =>
    let meant := if b = 0x2a then some Sign.star else if extended then
      [(0x28, Sign.opening), (0x29, Sign.close), (0x7c, Sign.bar), (0x2b, Sign.plus),
        (0x3f, Sign.question), (0x7b, Sign.brace)].lookup b else none
    some (meant.getD (.plain b), rest)

/-- The numbers between braces, and what is left behind them. -/
def braces (extended : Bool) (octets : Bytes) : Except String (Nat × Option Nat × Bytes) :=
  let isDigit (b : UInt8) : Bool := 0x30 ≤ b && b ≤ 0x39
  let read (digits : Bytes) : Nat := digits.foldl (fun n b => 10 * n + (b.toNat - 48)) 0
  let closing : Bytes := if extended then [0x7d] else [0x5c, 0x7d]
  let first := octets.takeWhile isDigit
  let rest := octets.drop first.length
  let second := if rest.head? = some 0x2c then rest.tail.takeWhile isDigit else []
  let (most, rest) := if rest.head? = some 0x2c then
      (if second = [] then none else some (read second), rest.drop (second.length + 1))
    else (some (read first), rest)
  if first = [] && second = [] then .error "Invalid preceding regular expression"
  else if closing.isPrefixOf rest then .ok (read first, most, rest.drop closing.length)
  else .error r"Unmatched \{"

/-- The choice behind a bracket, and what is left behind it. -/
def bracket (octets : Bytes) : Except String (Regex × Bytes) :=
  let outside := octets.head? = some 0x5e
  let members := if outside then octets.tail else octets
  match PatternPart.intervals? (members.length + 1) true (members.map fun b => ⟨b, false⟩) with
  | some (intervals, count) => .ok (.choice outside intervals, members.drop count)
  | none => .error "Unmatched [, [^, [:, [., or [="

/-- An expression, the number of groups so far, and what is left. -/
abbrev Reader := Nat → Bytes → Except String (Regex × Nat × Bytes)

mutual

/-- Branches. -/
def branches (extended : Bool) : (bound : Nat) → (inside : Bool) → Reader
  | 0, _, _, _ => .error "Regular expression too big"
  | bound + 1, inside, groups, octets => do
    let (first, groups, left) ← items extended bound inside .nothing groups octets
    match sign extended left with
    | some (.bar, left) =>
      let (second, groups, left) ← branches extended bound inside groups left
      return (.either first second, groups, left)
    | _ => return (first, groups, left)

/-- The items of a branch behind those that have been read. -/
def items (extended : Bool) : (bound : Nat) → (inside : Bool) → (before : Regex) → Reader
  | 0, _, _, _, _ => .error "Regular expression too big"
  | bound + 1, inside, before, groups, octets => do
    match sign extended octets with
    | none => return (before, groups, octets)
    | some (.bar, _) => return (before, groups, octets)
    | some (.close, rest) =>
      if inside then return (before, groups, octets)
      else if extended then
        items extended bound inside (.sequence before (literal [0x29])) groups rest
      else throw "Unmatched ) or \\)"
    | some _ =>
      let isFirst := before matches .nothing
      let (item, groups, left) ← item extended bound isFirst groups octets
      let (item, left) ← suffixes extended bound item left
      items extended bound inside (.sequence before item) groups left

/-- One item without its repetitions. -/
def item (extended : Bool) : (bound : Nat) → (isFirst : Bool) → Reader
  | 0, _, _, _ => .error "Regular expression too big"
  | bound + 1, isFirst, groups, octets => do
    match sign extended octets with
    | some (.opening, rest) =>
      let number := groups + 1
      let (inner, groups, left) ← branches extended bound true number rest
      match sign extended left with
      | some (.close, left) => return (.group number inner, groups, left)
      | _ => throw "Unmatched ( or \\("
    | some (.plain b, rest) =>
      let isEscaped := octets.head? = some 0x5c && octets.length = rest.length + 2
      if isEscaped then
        match classLetter? b with
        | some found => return (found, groups, rest)
        | none =>
          if b = 0x42 then return (.nothing, groups, rest)
          else if 0x31 ≤ b && b ≤ 0x39 then
            let number := b.toNat - 0x30
            if number ≤ groups then return (.again number, groups, rest)
            else throw "Invalid back reference"
          else return (literal [b], groups, rest)
      else if b = 0x5b then do
        let (found, rest) ← bracket rest
        return (found, groups, rest)
      else if b = 0x2e then return (.anyOctet, groups, rest)
      else if b = 0x5e && (extended || isFirst) then return (.edge true, groups, rest)
      else if b = 0x24 then
        let isLast := match sign extended rest with
          | none | some (.bar, _) | some (.close, _) => true
          | _ => false
        return (if extended || isLast then .edge false else literal [b], groups, rest)
      else if b = 0x5c then throw "Trailing backslash"
      else return (literal [b], groups, rest)
    | some (.star, rest) => return (if extended then .nothing else literal [0x2a], groups, rest)
    | some (.plus, rest) => return (if extended then .nothing else literal [0x2b], groups, rest)
    | some (.question, rest) => return (if extended then .nothing else literal [0x3f], groups, rest)
    | some (.brace, rest) =>
      if extended then return (literal [0x7b], groups, rest)
      else throw "Invalid preceding regular expression"
    | _ => return (.nothing, groups, octets.drop 1)

/-- An item with its repetitions. -/
def suffixes (extended : Bool) : (bound : Nat) → Regex → Bytes → Except String (Regex × Bytes)
  | 0, _, _ => .error "Regular expression too big"
  | bound + 1, inner, octets =>
    if !extended && (inner matches .edge true) then .ok (inner, octets)
    else match sign extended octets with
      | some (.star, rest) => suffixes extended bound (.repeated 0 none inner) rest
      | some (.plus, rest) => suffixes extended bound (.repeated 1 none inner) rest
      | some (.question, rest) => suffixes extended bound (.repeated 0 (some 1) inner) rest
      | some (.brace, rest) =>
        match braces extended rest with
        | .ok (least, most, left) => suffixes extended bound (.repeated least most inner) left
        | .error text =>
          if extended && !(rest.head?.any fun b => 0x30 ≤ b && b ≤ 0x39) then .ok (inner, octets)
          else .error text
      | _ => .ok (inner, octets)

end

/-- The expression that octets are in a notation, or what is wrong with them. -/
def parse (extended : Bool) (octets : Bytes) : Except String Regex := do
  let (regex, _, _) ← branches extended (4 * octets.length + 16) false 0 octets
  return regex

end Regex

end EngineFuzz.Shell
