import EngineFuzz.Shell.Edit.Instruction
import EngineFuzz.Shell.Printf
/-!
# Reading editing scripts

An editing script is read octet by octet.  What is wrong with one is told together with the
number of octets that had been read by then.

* `Read` — reading on in a script, where a complaint leaves the place at which it arose;
* `Script.parse` — the instructions of a script.
-/

namespace EngineFuzz.Shell.Edit

open Text (Bytes)

/-- What is left of a script, and how many blocks are open. -/
structure Place where
  rest : Bytes
  blocks : Nat
deriving Repr

/-- Reading on in a script. -/
abbrev Read := ExceptT String (StateM Place)

namespace Read

/-- Takes the next octet. -/
def next : Read (Option UInt8) := do
  let place ← get
  match place.rest with
  | [] => return none
  | b :: rest =>
    set { place with rest }
    return some b

/-- The next octet, which is not taken. -/
def peek : Read (Option UInt8) := do return (← get).rest.head?

/-- Takes octets of a class. -/
def takeRun (p : UInt8 → Bool) : Read Bytes := do
  let place ← get
  let found := place.rest.takeWhile p
  set { place with rest := place.rest.drop found.length }
  return found

/-- Whether an octet is white space on a line. -/
def isBlank (b : UInt8) : Bool := b = 0x20 || b = 0x09

/-- Whether an octet is a digit. -/
def isDigit (b : UInt8) : Bool := 0x30 ≤ b && b ≤ 0x39

/-- Skips white space on a line and takes the octet behind it. -/
def nextVisible : Read (Option UInt8) := do
  let _ ← takeRun isBlank
  next

/-- A number. -/
def number : Read Nat := do
  return (← takeRun isDigit).foldl (fun n b => 10 * n + (b.toNat - 48)) 0

/-- The octets that an escape of a text stands for, apart from those that only protect. -/
def escapeOf (letter : UInt8) : Option UInt8 :=
  if letter = 0x62 || letter = 0x5c then none else escapeLetter? letter

/-- Where an octet of an expression stands. -/
inductive Spot where
  | outside
  /-- Inside brackets, behind so many octets, of which a leading caret does not count. -/
  | bracket (count : Nat)
  /-- Inside a class in brackets, which a character and a bracket end. -/
  | inClass (mark : UInt8)
deriving DecidableEq, Repr

/-- Where the octet behind an octet stands. -/
def Spot.behind (spot : Spot) (b : UInt8) (next : Option UInt8) : Spot :=
  match spot with
  | .outside => if b = 0x5b then .bracket 0 else .outside
  | .bracket count =>
    if b = 0x5d && count ≠ 0 then .outside
    else if b = 0x5b && (next = some 0x3a || next = some 0x2e || next = some 0x3d) then
      .inClass (next.getD 0)
    else if b = 0x5e && count = 0 then .bracket 0
    else .bracket (count + 1)
  | .inClass mark => if b = mark && next = some 0x5d then .bracket 0 else .inClass mark

/-- The octets up to a mark that ends them, which is taken; a mark behind a backslash or in
brackets does not end them.  A line feed may be written as a letter. -/
def expressionUpTo (mark : UInt8) (complaint : String) : (bound : Nat) → Spot → Read Bytes
  | 0, _ => throw complaint
  | bound + 1, spot => do
    match ← next with
    | none => throw complaint
    | some b =>
      if b = mark && spot = .outside then return []
      else if b = 0x0a then throw complaint
      else if b = 0x5c then
        match ← next with
        | none => throw complaint
        | some c =>
          let more ← expressionUpTo mark complaint bound
            (if spot = .outside then .outside else (spot.behind b none).behind c none)
          return if c = 0x6e then 0x0a :: more
            else if c = mark && spot = .outside then c :: more
            else 0x5c :: c :: more
      else return b :: (← expressionUpTo mark complaint bound (spot.behind b (← peek)))

/-- The octets up to a mark that ends them, which is taken; a mark behind a backslash does not
end them. -/
def textUpTo (mark : UInt8) (complaint : String) : (bound : Nat) → Read Bytes
  | 0 => throw complaint
  | bound + 1 => do
    match ← next with
    | none => throw complaint
    | some b =>
      if b = mark then return []
      else if b = 0x0a then throw complaint
      else if b = 0x5c then
        match ← next with
        | none => throw complaint
        | some c =>
          let more ← textUpTo mark complaint bound
          return if c = mark && c ≠ 0x26 then c :: more else 0x5c :: c :: more
      else return b :: (← textUpTo mark complaint bound)

/-- The octets up to a mark. -/
def delimited (mark : UInt8) (inRegex : Bool) (complaint : String) : Read Bytes := do
  let bound := (← get).rest.length + 1
  if inRegex then expressionUpTo mark complaint bound .outside else textUpTo mark complaint bound

/-- An expression in which the escapes of the script have been resolved. -/
def resolved : (bound : Nat) → Bytes → Bytes
  | 0, octets => octets
  | bound + 1, 0x5c :: c :: rest =>
    match escapeOf c with
    | some octet => octet :: resolved bound rest
    | none => 0x5c :: c :: resolved bound rest
  | bound + 1, b :: rest => b :: resolved bound rest
  | _, [] => []

/-- The search that an expression stands for; an empty expression stands for none. -/
def search (extended ignoresCase : Bool) (octets : Bytes) : Read (Option Search) := do
  if octets = [] then return none
  match Regex.parse extended (resolved octets.length octets) with
  | .ok regex => return some ⟨regex, ignoresCase⟩
  | .error text => throw text

/-- The address that begins with an octet, if one does. -/
def address? (extended : Bool) (first : UInt8) : Read (Option Address) := do
  if first = 0x2f || first = 0x5c then
    let mark ← if first = 0x5c then do pure ((← next).getD 0x2f) else pure first
    let octets ← delimited mark true "unterminated address regex"
    let letters ← takeRun fun b => b = 0x49 || b = 0x4d
    return some (.matching (← search extended (letters.contains 0x49) octets))
  else if isDigit first then
    modify fun place => { place with rest := first :: place.rest }
    let n ← number
    let blanks ← takeRun isBlank
    if (← peek) = some 0x7e then
      let _ ← next
      let _ ← takeRun isBlank
      return some (.every n (← number))
    modify fun place => { place with rest := blanks ++ place.rest }
    return some (.line n)
  else if first = 0x24 then return some .last
  else return none

/-- The end of a range. -/
def extent (extended : Bool) : Read Extent := do
  match ← nextVisible with
  | some 0x2b => return .lines (← number)
  | some 0x7e => return .multiple (← number)
  | some first =>
    match ← address? extended first with
    | some address => return .upTo address
    | none => throw "unexpected `,'"
  | none => throw "unexpected `,'"

/-- The lines for which an instruction that begins with an octet is meant, and the first octet
behind. -/
def selection (extended : Bool) (first : UInt8) : Read (Selection × Option UInt8) := do
  let isRelative := first = 0x2b || first = 0x7e
  if isRelative then
    let _ ← number
    throw "invalid usage of +N or ~N as first address"
  let address ← address? extended first
  let behind ← if address.isSome then nextVisible else pure (some first)
  let (range, behind) ← if address.isSome && behind = some 0x2c then do
      let range ← extent extended
      pure (some range, ← nextVisible)
    else pure (none, behind)
  match address, range with
  | some (.line 0), some (.upTo (.matching _)) => pure ()
  | some (.line 0), _ => throw "invalid usage of line address 0"
  | _, _ => pure ()
  if behind = some 0x21 then
    let behind ← nextVisible
    if behind = some 0x21 then throw "multiple `!'s"
    return (⟨address, range, true⟩, behind)
  return (⟨address, range, false⟩, behind)

/-- Takes the end of an instruction. -/
def finish : Read Unit := do
  match ← nextVisible with
  | none | some 0x0a | some 0x3b => pure ()
  | some b =>
    if b = 0x7d || b = 0x23 then modify fun place => { place with rest := b :: place.rest }
    else throw "extra characters after command"

/-- The lines of a text, in which a backslash protects what is behind it.  The bound is the
length of the script. -/
def textLines : (bound : Nat) → Read Bytes
  | 0 => pure []
  | bound + 1 => do
    match ← next with
    | none | some 0x0a => return [0x0a]
    | some 0x5c =>
      match ← next with
      | none => return [0x0a]
      | some c => return (escapeOf c).getD c :: (← textLines bound)
    | some b => return b :: (← textLines bound)

/-- The text behind an instruction that has one. -/
def text : Read Bytes := do
  let complaint := "expected \\ after `a', `c' or `i'"
  match ← nextVisible with
  | none => throw complaint
  | some 0x0a => throw complaint
  | some 0x5c =>
    let blanks ← takeRun isBlank
    match ← next with
    | none => return []
    | some 0x0a => textLines ((← get).rest.length + 1)
    | some b =>
      modify fun place => { place with rest := blanks ++ b :: place.rest }
      textLines ((← get).rest.length + 1)
  | some b =>
    modify fun place => { place with rest := b :: place.rest }
    textLines ((← get).rest.length + 1)

/-- The rest of the line, which is the name of a file. -/
def path : Read Bytes := do
  let _ ← takeRun isBlank
  let name ← takeRun (· ≠ 0x0a)
  if name = [] then throw "missing filename in r/R/w/W commands"
  let _ ← next
  return name

/-- The name of a label. -/
def label : Read Bytes := do
  let _ ← takeRun isBlank
  let name ← takeRun fun b => b ≠ 0x0a && b ≠ 0x3b
  return (name.reverse.dropWhile isBlank).reverse

/-- The parts of what replaces a match. -/
def partsOf : (bound : Nat) → Bytes → List Part
  | 0, _ => []
  | _, [] => []
  | bound + 1, 0x26 :: rest => .group 0 :: partsOf bound rest
  | bound + 1, 0x5c :: c :: rest =>
    let letter := Char.ofNat c.toNat
    if isDigit c then .group (c.toNat - 48) :: partsOf bound rest
    else if "LUluE".toList.contains letter then .convert letter :: partsOf bound rest
    else .text [(escapeOf c).getD c] :: partsOf bound rest
  | bound + 1, b :: rest => .text [b] :: partsOf bound rest

/-- The modifiers of a replacement. -/
structure Modifiers where
  all : Bool
  prints : Bool
  ignoresCase : Bool
  first : Option Nat
  file : Option Bytes

/-- The modifiers behind a replacement.  The bound is the length of the script. -/
def modifiers : (bound : Nat) → Modifiers → Read Modifiers
  | 0, found => pure found
  | bound + 1, found => do
    match ← next with
    | none | some 0x0a | some 0x3b => return found
    | some b =>
      if b = 0x69 || b = 0x49 then modifiers bound { found with ignoresCase := true }
      else if b = 0x6d || b = 0x4d then modifiers bound found
      else if b = 0x67 then
        if found.all then throw "multiple `g' options to `s' command"
        modifiers bound { found with all := true }
      else if b = 0x70 then
        if found.prints then throw "multiple `p' options to `s' command"
        modifiers bound { found with prints := true }
      else if b = 0x77 then
        let file ← path
        return { found with file := some file }
      else if isDigit b then
        if found.first.isSome then throw "multiple number options to `s' command"
        modify fun place => { place with rest := b :: place.rest }
        let n ← number
        if n = 0 then throw "number option to `s' command may not be zero"
        modifiers bound { found with first := some n }
      else if isBlank b then modifiers bound found
      else if b = 0x7d || b = 0x23 then
        modify fun place => { place with rest := b :: place.rest }
        return found
      else throw "unknown option to `s'"

/-- A replacement. -/
def substitution (extended : Bool) : Read Action := do
  let complaint := "unterminated `s' command"
  let mark ← match ← next with
    | some b => if b = 0x0a || b = 0x5c then throw complaint else pure b
    | none => throw complaint
  let octets ← delimited mark true complaint
  let replacement ← delimited mark false complaint
  let found ← modifiers ((← get).rest.length + 1) ⟨false, false, false, none, none⟩
  let parts := partsOf replacement.length replacement
  let search ← search extended found.ignoresCase octets
  let groups := (search.map fun search => search.regex.groups).getD 9
  match parts.find? fun part => match part with
    | .group n => decide (groups < n)
    | _ => false with
  | some (.group n) => throw s!"invalid reference \\{n} on `s' command's RHS"
  | _ => return .substitute ⟨search, parts, found.first.getD 1, found.all, found.prints, found.file⟩

/-- The octets of one side of a replacement. -/
def plainOctets : (bound : Nat) → Bytes → Bytes
  | 0, octets => octets
  | bound + 1, 0x5c :: c :: rest => (escapeOf c).getD c :: plainOctets bound rest
  | bound + 1, b :: rest => b :: plainOctets bound rest
  | _, [] => []

/-- An instruction that replaces octets one by one. -/
def replacement : Read Action := do
  let complaint := "unterminated `y' command"
  let mark ← match ← next with
    | some b => if b = 0x0a || b = 0x5c then throw complaint else pure b
    | none => throw complaint
  let source ← delimited mark false complaint
  let target ← delimited mark false complaint
  let source := plainOctets source.length source
  let target := plainOctets target.length target
  if source.length ≠ target.length then throw "strings for `y' command are different lengths"
  finish
  return .replaceEach (source.zip target)

/-- The actions that are one letter. -/
def letterAction? : Char → Option Action
  | '=' => some .number
  | 'd' => some .delete
  | 'D' => some .deleteFirst
  | 'F' => some .fileName
  | 'g' => some .fromHold
  | 'G' => some .appendFromHold
  | 'h' => some .toHold
  | 'H' => some .appendToHold
  | 'l' => some .list
  | 'n' => some .next
  | 'N' => some .nextAppend
  | 'p' => some .print
  | 'P' => some .printFirst
  | 'x' => some .exchange
  | 'z' => some .clear
  | _ => none

/-- The action that a letter begins. -/
def action (extended : Bool) (selection : Selection) (letter : Char) : Read Action := do
  match letterAction? letter with
  | some action => do
    finish
    return action
  | none =>
    match letter with
    | '{' => do
      modify fun place => { place with blocks := place.blocks + 1 }
      return .block
    | '}' => do
      let place ← get
      if place.blocks = 0 then throw r"unexpected `}'"
      if selection.first.isSome then throw r"} doesn't want any addresses"
      set { place with blocks := place.blocks - 1 }
      finish
      return .blockEnd
    | 'a' => return .append (← text)
    | 'i' => return .insert (← text)
    | 'c' => return .change (← text)
    | ':' => do
      if selection.first.isSome then throw ": doesn't want any addresses"
      let name ← label
      if name = [] then throw "\":\" lacks a label"
      return .label name
    | 'b' => return .jump (← label)
    | 't' => return .jumpIf true (← label)
    | 'T' => return .jumpIf false (← label)
    | 'q' | 'Q' => do
      if selection.extent.isSome then throw "command only uses one address"
      let _ ← takeRun isBlank
      let status ← number
      finish
      return .quit status (letter = 'q')
    | 'r' => return .readFile (← path)
    | 'w' => return .writeFile (← path)
    | 'W' => return .writeFirst (← path)
    | 's' => substitution extended
    | 'y' => replacement
    | letter => throw (s!"unknown command: `" ++ String.singleton letter ++ "'")

/-- The instructions that are left.  The bound is the length of the script. -/
def instructions (extended : Bool) : (bound : Nat) → Read (List Instruction)
  | 0 => pure []
  | bound + 1 => do
    let _ ← takeRun fun b => b = 0x3b || b = 0x0a || isBlank b
    match ← next with
    | none => return []
    | some 0x23 =>
      let _ ← takeRun (· ≠ 0x0a)
      instructions extended bound
    | some first => do
      let (selection, behind) ← selection extended first
      match behind with
      | none => throw "missing command"
      | some b =>
        if b = 0x23 then throw "comments don't accept any addresses"
        if b = 0x0a || b = 0x3b then throw "missing command"
        let action ← action extended selection (Char.ofNat b.toNat)
        return ⟨selection, action⟩ :: (← instructions extended bound)

end Read

/-- What is wrong with a script. -/
inductive Fault where
  /-- Something at a place, told by how many octets had been read. -/
  | placed (count : Nat) (text : String)
  | unmatched
  | noLabel (name : Bytes)
deriving DecidableEq, Repr

/-- The instructions of a script, or what is wrong with it. -/
def parse (extended : Bool) (script : Bytes) : Except Fault (List Instruction) :=
  match (ExceptT.run (Read.instructions extended (script.length + 1))).run ⟨script, 0⟩ with
  | (.error text, place) => .error (.placed (script.length - place.rest.length) text)
  | (.ok instructions, place) =>
    let labels := instructions.filterMap fun instruction =>
      match instruction.action with
      | .label name => some name
      | _ => none
    if place.blocks ≠ 0 then .error .unmatched
    else match (instructions.filterMap (·.action.target?)).find? fun name =>
      !labels.contains name with
      | some name => .error (.noLabel name)
      | none => .ok instructions

end EngineFuzz.Shell.Edit
