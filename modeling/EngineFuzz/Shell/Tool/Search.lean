import EngineFuzz.Shell.Regex
import EngineFuzz.Shell.Tool.Files
/-!
# Searching for lines

The tool that writes the lines in which one of some expressions has a match.
-/

namespace EngineFuzz.Shell.Tool

open Text (Bytes)

/-- How lines are searched. -/
structure Query where
  regex : Regex
  ignoresCase : Bool
  /-- Whether a match has to be a word, or a line. -/
  wholeWord : Bool
  wholeLine : Bool
deriving Repr

namespace Query

/-- The longest match at a place that the query accepts. -/
def matchAt? (query : Query) (text : Array UInt8) (start : Nat) : Option Nat :=
  let isWord (place : Nat) : Bool := text[place]?.any Regex.isWordOctet
  let accepts (stop : Nat) : Bool :=
    if query.wholeLine then start = 0 && stop = text.size
    else if query.wholeWord then !(start ≠ 0 && isWord (start - 1)) && !isWord stop
    else true
  ((query.regex.ways query.ignoresCase text ⟨start, []⟩).map (·.offset)).foldl (fun best stop =>
    if accepts stop && best.all (· < stop) then some stop else best) none

/-- The first match from a place on.  The bound is the number of places. -/
def findFrom (query : Query) (text : Array UInt8) : (bound : Nat) → (start : Nat) →
    Option (Nat × Nat)
  | 0, _ => none
  | bound + 1, start =>
    match query.matchAt? text start with
    | some stop => some (start, stop)
    | none => if text.size ≤ start then none else query.findFrom text bound (start + 1)

/-- Whether a line has a match. -/
def accepts (query : Query) (line : Bytes) : Bool :=
  (query.findFrom line.toArray (line.length + 1) 0).isSome

/-- The matches from a place on that are not empty.  The bound is the length of the line. -/
def matchesFrom (query : Query) (line : Bytes) : (bound : Nat) → (start : Nat) → List Bytes
  | 0, _ => []
  | bound + 1, start =>
    match query.findFrom line.toArray (line.length + 1) start with
    | none => []
    | some (first, stop) =>
      if first = stop then
        if line.length ≤ first then [] else query.matchesFrom line bound (first + 1)
      else (line.take stop).drop first :: query.matchesFrom line bound stop

end Query

/-- How what is found is written. -/
structure Report where
  /-- Whether lines without a match are meant. -/
  inverted : Bool
  counts : Bool
  namesFiles : Bool
  numbers : Bool
  onlyMatches : Bool
  before : Nat
  behind : Nat
  most : Option Nat

/-- The lines of a file with their numbers, and whether each of them is meant. -/
def judged (query : Query) (inverted : Bool) (lines : List Bytes) : List (Nat × Bytes × Bool) :=
  lines.zipIdx.map fun (line, index) => (index + 1, line, query.accepts line != inverted)

/-- The lines up to the one at which enough have been found; what stands behind it belongs to it
only as its surroundings. -/
def upToMost : (left : Option Nat) → List (Nat × Bytes × Bool) → List (Nat × Bytes × Bool)
  | _, [] => []
  | some 0, (number, line, isMeant) :: rest =>
    if isMeant then [] else (number, line, false) :: upToMost (some 0) rest
  | left, (number, line, isMeant) :: rest =>
    (number, line, isMeant) :: upToMost (if isMeant then left.map (· - 1) else left) rest

/-- Whether a line is to be written: it is meant, or near one that is. -/
def isNear (before behind : Nat) (meant : List Nat) (number : Nat) : Bool :=
  meant.any fun other => if other ≤ number then number ≤ other + behind else other ≤ number + before

/-- The text for what has been found in a file. -/
def reported (report : Report) (query : Query) (name : Bytes) (lines : List (Nat × Bytes × Bool)) :
    Bytes :=
  let meant := lines.filterMap fun (number, _, isMeant) => if isMeant then some number else none
  let heading (mark : UInt8) (number : Nat) : Bytes :=
    (if report.namesFiles then name ++ [mark] else []) ++
      (if report.numbers then decimal number ++ [mark] else [])
  if report.counts then
    (if report.namesFiles then name ++ [0x3a] else []) ++ decimal meant.length ++ [0x0a]
  else if report.onlyMatches then
    lines.flatMap fun (number, line, isMeant) =>
      if isMeant && !report.inverted then
        (query.matchesFrom line (line.length + 1) 0).flatMap fun found =>
          heading 0x3a number ++ found ++ [0x0a]
      else []
  else
    let written := lines.filter fun (number, _, _) =>
        isNear report.before report.behind meant number
    let isApart := report.before ≠ 0 || report.behind ≠ 0
    (written.foldl (fun (text, previous) (number, line, isMeant) =>
      let gap := if isApart && previous ≠ 0 && number ≠ previous + 1 then ascii "--\n" else []
      (text ++ gap ++ heading (if isMeant then 0x3a else 0x2d) number ++ line ++ [0x0a], number))
      (([] : Bytes), 0)).1

/-- The expression that patterns in a notation are, any of which may have a match. -/
def patternsRegex (extended isFixed : Bool) (patterns : List Bytes) : Except String Regex := do
  let found ← patterns.mapM fun pattern =>
    if isFixed then .ok (Regex.literal pattern) else Regex.parse extended pattern
  match found with
  | [] => .ok (.choice false [])
  | first :: rest => .ok (rest.foldl .either first)

/-- The files below directories, if they are to be searched as well. -/
def searched (files : FileTree) (operand : Bytes) : List Bytes :=
  match files.resolve ⟨operand⟩ with
  | .ok location =>
    let found := files.entries.filterMap fun (other, entry) =>
      match location.isPrefixOf? other, entry with
      | some rest, .file _ => some (operand ++ rest.flatMap (Path.slash :: ·))
      | _, _ => none
    inOrder found
  | .error _ => [operand]

/-- How the search is called. -/
def searchUsage : String :=
  "Usage: grep [OPTION]... PATTERNS [FILE]...\nTry 'grep --help' for more information."

/-- The options of the search. -/
def searchOptions : OptionTable :=
  ⟨"EFGPivnclLoqsxwhHraRyU", "efmABC",
    [("extended-regexp", 'E'), ("fixed-strings", 'F'), ("basic-regexp", 'G'), ("ignore-case", 'i'),
      ("invert-match", 'v'), ("line-number", 'n'), ("count", 'c'), ("files-with-matches", 'l'),
      ("files-without-match", 'L'), ("only-matching", 'o'), ("quiet", 'q'), ("silent", 'q'),
      ("no-messages", 's'), ("line-regexp", 'x'), ("word-regexp", 'w'), ("no-filename", 'h'),
      ("with-filename", 'H'), ("recursive", 'r'), ("text", 'a'), ("regexp", 'e'), ("file", 'f'),
      ("max-count", 'm'), ("after-context", 'A'), ("before-context", 'B'), ("context", 'C')]⟩

/-- The patterns that options ask for, unless a file of patterns cannot be read. -/
def givenPatterns : List (Char × Bytes) → Eval (Except Bytes (List Bytes))
  | [] => pure (.ok [])
  | (letter, value) :: options => do
    let found ← if letter = 'e' then pure (.ok (splitAt 0x0a value))
      else if letter = 'f' then do
        pure ((← content? value).map fun octets => (linesOf octets).map withoutFeed)
      else pure (.ok [])
    match found with
    | .ok patterns => return (← givenPatterns options).map (patterns ++ ·)
    | .error fault => return .error (barely value fault)

/-- Writes what is to be known about one text, whose lines have been judged. -/
def announce (given : Given) (report : Report) (query : Query) (name octets : Bytes)
    (lines : List (Nat × Bytes × Bool)) (isFound : Bool) : Eval Unit := do
  if given.has 'q' then pure ()
  else if given.has 'l' || given.has 'L' then
    if isFound == given.has 'l' then emit (name ++ [0x0a])
  else if octets.contains 0 && !given.has 'a' && !report.counts then
    if isFound then complainOf "grep" (name ++ ascii ": binary file matches")
  else emit (reported report query name lines)

/-- Searches one text; tells whether anything has been found. -/
def searchText (given : Given) (report : Report) (query : Query) (name octets : Bytes) :
    Eval Bool := do
  let lines := judged query report.inverted ((linesOf octets).map withoutFeed)
  let lines := match report.most with
    | some most => upToMost (some most) lines
    | none => lines
  let isFound := lines.any (·.2.2)
  announce given report query name octets lines isFound
  return isFound != given.has 'L'

/-- Searches all operands; tells whether anything has been found, and whether anything went
wrong. -/
def searchAll (given : Given) (report : Report) (query : Query) : List Bytes → Eval (Bool × Bool)
  | [] => pure (false, false)
  | operand :: operands => do
    let name := if operand = [0x2d] then ascii "(standard input)" else operand
    match ← content? operand with
    | .ok octets =>
      let isFound ← searchText given report query name octets
      if isFound && given.has 'q' then return (true, false)
      let (isAny, isWrong) ← searchAll given report query operands
      return (isFound || isAny, isWrong)
    | .error fault =>
      if !given.has 's' then complainOf "grep" (barely operand fault)
      let (isAny, _) ← searchAll given report query operands
      return (isAny, true)

/-- Writes the lines that have a match. -/
def grep (extended isFixed : Bool) : Utility := fun args => do
  match Given.read searchOptions args.length args with
  | .error fault =>
    complainOf "grep" fault.message
    complain (ascii searchUsage)
    finish 2
  | .ok given =>
  match ← givenPatterns given.options with
  | .error text =>
    complainOf "grep" text
    finish 2
  | .ok patterns =>
    let isGiven := given.has 'e' || given.has 'f'
    if !isGiven && given.operands = [] then
      complain (ascii searchUsage)
      finish 2
    else
      let patterns := if isGiven then patterns else splitAt 0x0a (given.operands.headD [])
      let operands := if isGiven then given.operands else given.operands.tail
      let isDeep := given.has 'r' || given.has 'R'
      let files := (← get).files
      let targets := if isDeep then
          if operands = [] then (searched files [Path.dot]).map (·.drop 2)
          else operands.flatMap (searched files)
        else if operands = [] then [[0x2d]] else operands
      let context (letter : Char) : Nat :=
        (((given.value? letter) <|> (given.value? 'C')).bind number?).getD 0
      let report : Report := {
        inverted := given.has 'v'
        counts := given.has 'c'
        namesFiles := !given.has 'h' && (given.has 'H' || isDeep || 1 < targets.length)
        numbers := given.has 'n'
        onlyMatches := given.has 'o'
        before := context 'B'
        behind := context 'A'
        most := (given.value? 'm').bind number? }
      let extended := extended || given.has 'E' || given.has 'P'
      match patternsRegex extended (isFixed || given.has 'F') patterns with
      | .error text =>
        complainOf "grep" (ascii text)
        finish 2
      | .ok regex =>
        let query : Query := ⟨regex, given.has 'i' || given.has 'y', given.has 'w', given.has 'x'⟩
        let (isFound, isWrong) ← searchAll given report query targets
        finish (if isWrong && !(isFound && given.has 'q') then 2 else if isFound then 0 else 1)

end EngineFuzz.Shell.Tool
