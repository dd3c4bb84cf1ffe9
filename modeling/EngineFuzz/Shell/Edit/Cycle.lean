import EngineFuzz.Shell.Edit.Instruction
import EngineFuzz.Shell.Machine
/-!
# Carrying out editing scripts

The editor reads a line, carries out its script on it, writes what has become of it, and goes on
with the next line.  Beside the line it keeps a second text, the held one, from one line to the
next.

* `Editor` — the state of the editor;
* `Editor.cycles` — what the editor does until the lines or the script are over.
-/

namespace EngineFuzz.Shell.Edit

open Text (Bytes)

/-- What is written behind a line. -/
inductive Pending where
  | text (octets : Bytes)
  | file (path : Bytes)
deriving DecidableEq, Repr

/-- The state of the editor. -/
structure Editor where
  line : Bytes
  /-- Whether the line has an end, which the last line of a text may lack. -/
  ended : Bool
  held : Bytes
  /-- Whether the held text has an end. -/
  heldEnded : Bool
  number : Nat
  /-- The lines that have not been read. -/
  rest : List Bytes
  /-- The ranges that have begun, by their instructions, with the numbers of their last lines if
  known. -/
  active : List (Nat × Option Nat)
  replaced : Bool
  /-- The search that was used last. -/
  latest : Option Search
  pending : List Pending
  output : Bytes
  /-- Whether the output lacks the end of its last line. -/
  owes : Bool
  /-- What has been written to files. -/
  files : List (Bytes × Bytes)

/-- What a script is carried out with. -/
structure Setting where
  program : List Instruction
  quiet : Bool
  /-- The name of the text. -/
  name : Bytes
  /-- The contents of files. -/
  contents : Bytes → Bytes

/-- Where a script goes on behind an instruction. -/
inductive Flow where
  | goOn (index : Nat)
  /-- The script is over, and the line is written or not. -/
  | over (prints : Bool)
  /-- The script begins again on what is left of the line. -/
  | again
  /-- Everything is over. -/
  | stop (status : Nat) (prints : Bool)
deriving DecidableEq, Repr

/-- A change of the editor's state. -/
abbrev Step := StateM Editor

namespace Editor

/-- Writes octets, and the end of a line behind them or not. -/
def put (octets : Bytes) (ends : Bool) : Step Unit := modify fun editor =>
  { editor with
    output := editor.output ++ (if editor.owes then [0x0a] else []) ++ octets ++
      (if ends then [0x0a] else [])
    owes := !ends }

/-- Writes text that has its own end. -/
def putText (text : Bytes) : Step Unit :=
  if text = [] then pure () else put (withoutFeed text) (text.getLast? = some 0x0a)

/-- Writes to a file. -/
def putFile (path octets : Bytes) (ends : Bool) : Step Unit :=
  if path = ascii "/dev/stdout" then put octets ends
  else modify fun editor =>
    let before := (editor.files.lookup path).getD []
    let after := before ++ octets ++ (if ends then [0x0a] else [])
    { editor with files := (path, after) :: editor.files.filter (·.1 ≠ path) }

/-- Writes what is to stand behind the line. -/
def flush (setting : Setting) : Step Unit := do
  let editor ← get
  set { editor with pending := [] }
  editor.pending.forM fun pending =>
    match pending with
    | .text octets => putText octets
    | .file path => do
      let octets := setting.contents path
      if octets ≠ [] then
        put [] false
        modify fun editor => { editor with output := editor.output ++ octets, owes := false }

/-- Reads the next line, if there is one. -/
def readLine : Step (Option Bytes) := do
  let editor ← get
  match editor.rest with
  | [] => return none
  | line :: rest =>
    set { editor with
      rest, number := editor.number + 1, replaced := false, ended := line.getLast? = some 0x0a }
    return some (withoutFeed line)

/-- The first match of a search, or of the one that was used last, in a text from a place on. -/
def find? (search : Option Search) (text : Bytes) (start : Nat) : Step (Option Regex.Match) := do
  let editor ← get
  match search <|> editor.latest with
  | some search =>
    set { editor with latest := some search }
    return search.regex.find? search.ignoresCase text start
  | none => return none

/-- Whether an address says the current line. -/
def isAt (address : Address) : Step Bool := do
  let editor ← get
  match address with
  | .line number => return editor.number = number
  | .every first step =>
    if step = 0 then return editor.number = first
    else return first ≤ editor.number && (editor.number - first) % step = 0
  | .last => return editor.rest.isEmpty
  | .matching search => return (← find? search editor.line 0).isSome

/-- The last line of a range that begins on a line, if its number is known. -/
def lastOf (here : Nat) : Extent → Option Nat
  | .upTo (.line number) => some number
  | .lines count => some (here + count)
  | .multiple factor => some (if factor = 0 then here else (here / factor + 1) * factor)
  | .upTo _ => none

/-- Begins a range, unless it is over at once. -/
def beginRange (index : Nat) (range : Extent) : Step Unit := modify fun editor =>
  let last := lastOf editor.number range
  let isShort := match last with
    | some last => decide (last ≤ editor.number)
    | none => false
  if isShort then editor else { editor with active := (index, last) :: editor.active }

/-- Whether an instruction is meant for the current line. -/
def isMeant (index : Nat) (selection : Selection) : Step Bool := do
  let found ← match selection.first, selection.extent with
    | none, _ => pure true
    | some address, none => isAt address
    | some address, some range => do
      let editor ← get
      let finish : Step Unit := modify fun editor =>
        { editor with active := editor.active.filter (·.1 ≠ index) }
      match editor.active.lookup index with
      | some (some last) =>
        if last ≤ editor.number then finish
        if editor.number ≤ last then pure true
        else if ← isAt address then do
          beginRange index range
          pure true
        else pure false
      | some none =>
        match range with
        | .upTo address => do
          if ← isAt address then finish
          pure true
        | _ => pure true
      | none =>
        if ← isAt address then do
          beginRange index range
          pure true
        else pure false
  return found != selection.negated

/-- An octet in upper or lower case, if it is a letter. -/
def cased (upper : Option Bool) (b : UInt8) : UInt8 :=
  match upper with
  | some true => if 0x61 ≤ b && b ≤ 0x7a then b - 0x20 else b
  | some false => Regex.lower b
  | none => b

/-- What stands in the place of a match.  `all` and `once` say in which case octets are to be,
from here on or only the next one. -/
def replacementOf (text : Bytes) (found : Regex.Match) :
    (all once : Option Bool) → List Part → Bytes
  | _, _, [] => []
  | all, once, .convert letter :: parts =>
    match letter with
    | 'U' => replacementOf text found (some true) none parts
    | 'L' => replacementOf text found (some false) once parts
    | 'u' => replacementOf text found all (some true) parts
    | 'l' => replacementOf text found all (some false) parts
    | _ => replacementOf text found none none parts
  | all, once, part :: parts =>
    let octets := match part with
      | .text octets => octets
      | .group 0 => (text.take found.stop).drop found.start
      | .group number =>
        match found.groups.lookup number with
        | some (start, stop) => (text.take stop).drop start
        | none => []
      | .convert _ => []
    match octets with
    | [] => replacementOf text found all once parts
    | b :: rest =>
      cased (once <|> all) b :: rest.map (cased all) ++ replacementOf text found all none parts

/-- Replaces matches from a place on, given how many there have been before and where the last
one stopped.  Nothing is found right behind a match without an octet.  The bound is the length
of the text. -/
def replaceFrom (substitution : Substitution) (text : Bytes) :
    (bound : Nat) → (start count : Nat) → (previous : Option Nat) → Step (Bytes × Bool)
  | 0, start, _, _ => pure (text.drop start, false)
  | bound + 1, start, count, previous => do
    match ← find? substitution.search text start with
    | none => return (text.drop start, false)
    | some found =>
      let before := (text.take found.start).drop start
      let one := (text.drop found.start).take 1
      let isEmpty := found.start = found.stop
      let goOn (shown : Bytes) (count : Nat) (isReplaced : Bool) : Step (Bytes × Bool) := do
        if isEmpty && text.length ≤ found.start then return (before ++ shown, isReplaced)
        let start := if isEmpty then found.start + 1 else found.stop
        let (more, isAny) ← replaceFrom substitution text bound start count
          (if isEmpty then none else some found.stop)
        return (before ++ shown ++ (if isEmpty then one else []) ++ more, isReplaced || isAny)
      if isEmpty && previous = some found.start then goOn [] count false
      else if count + 1 < substitution.first then
        goOn ((text.take found.stop).drop found.start) (count + 1) false
      else
        let shown := replacementOf text found none none substitution.parts
        if substitution.all then goOn shown (count + 1) true
        else return (before ++ shown ++ text.drop found.stop, true)

/-- An octet as it is shown where all octets are to be seen. -/
def shownOctet (b : UInt8) : Bytes :=
  let letters : List (UInt8 × Char) :=
    [(0x5c, '\\'), (0x07, 'a'), (0x08, 'b'), (0x0c, 'f'), (0x0a, 'n'), (0x0d, 'r'),
      (0x09, 't'), (0x0b, 'v')]
  match letters.lookup b with
  | some letter => [0x5c, letter.toNat.toUInt8]
  | none =>
    if 0x20 ≤ b && b < 0x7f then [b]
    else [0x5c, 0x30 + b / 64, 0x30 + b / 8 % 8, 0x30 + b % 8]

/-- Octets as they are shown where all octets are to be seen, on lines of at most seventy octets. -/
def shown (octets : Bytes) : Bytes :=
  (octets.foldl (fun (shown, width) b =>
    let piece := shownOctet b
    if 69 < width + piece.length then (shown ++ ascii "\\\n" ++ piece, piece.length)
    else (shown ++ piece, width + piece.length)) (([] : Bytes), 0)).1 ++ ascii "$"

/-- The octets of the first line of a text. -/
def firstLine (octets : Bytes) : Bytes := octets.takeWhile (· ≠ 0x0a)

/-- How many instructions there are up to the end of a block, given how many blocks are open in
it. -/
def blockLength : (depth : Nat) → List Instruction → Nat
  | _, [] => 0
  | depth, instruction :: rest =>
    match instruction.action with
    | .block => blockLength (depth + 1) rest + 1
    | .blockEnd => if depth = 0 then 1 else blockLength (depth - 1) rest + 1
    | _ => blockLength depth rest + 1

/-- Where a jump leads. -/
def jumpTo (program : List Instruction) (name : Bytes) : Flow :=
  if name = [] then .over true
  else .goOn (program.findIdx fun instruction => match instruction.action with
    | .label other => other = name
    | _ => false)

/-- Carries out an action for the current line. -/
def perform (setting : Setting) (index : Nat) (selection : Selection) (action : Action) :
    Step Flow := do
  let editor ← get
  let following := Flow.goOn (index + 1)
  match action with
  | .block | .blockEnd | .label _ => return following
  | .number =>
    put (decimal editor.number) true
    return following
  | .append text =>
    set { editor with pending := editor.pending ++ [Pending.text text] }
    return following
  | .insert text =>
    putText text
    return following
  | .change text =>
    let isInside := (editor.active.lookup index).isSome && !selection.negated
    if !isInside then putText text
    return .over false
  | .jump name => return jumpTo setting.program name
  | .jumpIf replaced name =>
    set { editor with replaced := false }
    return if editor.replaced = replaced then jumpTo setting.program name else following
  | .delete => return .over false
  | .deleteFirst =>
    if editor.line.contains 0x0a then
      set { editor with line := editor.line.drop ((firstLine editor.line).length + 1) }
      return .again
    else return .over false
  | .fromHold =>
    set { editor with line := editor.held, ended := editor.heldEnded }
    return following
  | .appendFromHold =>
    set { editor with
      line := editor.line ++ 0x0a :: editor.held, ended := editor.ended || editor.heldEnded }
    return following
  | .toHold =>
    set { editor with held := editor.line, heldEnded := editor.ended }
    return following
  | .appendToHold =>
    set { editor with
      held := editor.held ++ 0x0a :: editor.line, heldEnded := editor.heldEnded || editor.ended }
    return following
  | .exchange =>
    set { editor with
      line := editor.held, ended := editor.heldEnded, held := editor.line,
      heldEnded := editor.ended }
    return following
  | .list =>
    put (shown editor.line) true
    return following
  | .next =>
    if editor.rest.isEmpty then return .stop 0 true
    else
      if !setting.quiet then put editor.line editor.ended
      flush setting
      let line := (← readLine).getD []
      modify fun editor => { editor with line }
      return following
  | .nextAppend =>
    if editor.rest.isEmpty then return .stop 0 true
    else
      flush setting
      let line := (← readLine).getD []
      modify fun editor => { editor with line := editor.line ++ 0x0a :: line }
      return following
  | .print =>
    put editor.line editor.ended
    return following
  | .printFirst =>
    put (firstLine editor.line) (editor.ended || editor.line.contains 0x0a)
    return following
  | .quit status prints => return .stop status prints
  | .readFile path =>
    set { editor with pending := editor.pending ++ [Pending.file path] }
    return following
  | .writeFile path =>
    putFile path editor.line editor.ended
    return following
  | .writeFirst path =>
    putFile path (firstLine editor.line) true
    return following
  | .substitute substitution =>
    let (line, isReplaced) ← replaceFrom substitution editor.line (editor.line.length + 2) 0 0 none
    if isReplaced then
      modify fun editor => { editor with line, replaced := true }
      if substitution.prints then put line editor.ended
      match substitution.file with
      | some path => putFile path line editor.ended
      | none => pure ()
    return following
  | .replaceEach pairs =>
    set { editor with line := editor.line.map fun b => (pairs.lookup b).getD b }
    return following
  | .fileName =>
    put setting.name true
    return following
  | .clear =>
    set { editor with line := [] }
    return following

/-- Carries out the script on the current line from an instruction on. -/
def carryOut (setting : Setting) : (bound : Nat) → (index : Nat) → Step Flow
  | 0, _ => pure (.stop 1 false)
  | bound + 1, index => do
    match setting.program[index]? with
    | none => return .over true
    | some ⟨selection, action⟩ =>
      if ← isMeant index selection then
        match ← perform setting index selection action with
        | .goOn index => carryOut setting bound index
        | flow => return flow
      else
        match action with
        | .block =>
          carryOut setting bound (index + 1 + blockLength 0 (setting.program.drop (index + 1)))
        | _ => carryOut setting bound (index + 1)

/-- How many instructions the script may take on one line. -/
def patience : Nat := 1000000

/-- Carries out the script on the line and on all that are left.  The script may ask to be
carried out again on a line that gets shorter by it, so the bound is more than the number of
octets. -/
def cycles (setting : Setting) : (bound : Nat) → (isNew : Bool) → Step Nat
  | 0, _ => pure 1
  | bound + 1, isNew => do
    let line ← if isNew then readLine else pure (some (← get).line)
    match line with
    | none => return 0
    | some line =>
      modify fun editor => { editor with line }
      let flow ← carryOut setting patience 0
      let prints := match flow with
        | .over prints | .stop _ prints => prints
        | _ => false
      let editor ← get
      if prints && !setting.quiet then put editor.line editor.ended
      match flow with
      | .stop status prints =>
        if prints then flush setting
        return status
      | flow =>
        flush setting
        cycles setting bound (flow ≠ .again)

/-- The editor before the first line.  A range whose first address is the line before the first
one has begun. -/
def begin (program : List Instruction) (rest : List Bytes)
    (files : List (Bytes × Bytes)) : Editor where
  line := []
  ended := true
  held := []
  heldEnded := true
  number := 0
  rest := rest
  active := program.zipIdx.filterMap fun (instruction, index) =>
    match instruction.selection with
    | ⟨some (.line 0), some _, _⟩ => some (index, none)
    | _ => none
  replaced := false
  latest := none
  pending := []
  output := []
  owes := false
  files := files

/-- The files to which a script writes, which are emptied first. -/
def targets (program : List Instruction) : List Bytes :=
  program.filterMap fun instruction =>
    match instruction.action with
    | .writeFile path | .writeFirst path => some path
    | .substitute substitution => substitution.file
    | _ => none

/-- What the editor has done to lines, and its status. -/
def edit (setting : Setting) (lines : List Bytes) (files : List (Bytes × Bytes)) : Nat × Editor :=
  let octets := (lines.map List.length).foldl (· + ·) 0
  (cycles setting (octets + lines.length + 2) true).run (begin setting.program lines files)

end Editor

end EngineFuzz.Shell.Edit
