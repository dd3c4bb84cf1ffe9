import EngineFuzz.Shell.Tool.Given
/-!
# Tools for lines

Tools that choose, count, number, sort and join lines of the input or of files.
-/

namespace EngineFuzz.Shell.Tool

open Text (Bytes)

/-- Numbers the lines from one on.  `counts` chooses the lines that have a number. -/
def numbered (counts : Bytes → Bool) (shown : Option Nat → Bytes → Bytes) :
    (next : Nat) → List Bytes → Bytes
  | _, [] => []
  | next, line :: lines =>
    if counts line then shown (some next) line ++ numbered counts shown (next + 1) lines
    else shown none line ++ numbered counts shown next lines

/-- An octet as it is shown where all octets are to be seen. -/
def shownOctet (b : UInt8) : Bytes :=
  let low (b : UInt8) : Bytes :=
    if b < 0x20 then [0x5e, b + 0x40] else if b = 0x7f then ascii "^?" else [b]
  if b < 0x80 then low b else ascii "M-" ++ low (b - 0x80)

/-- Writes files one after the other. -/
def cat : Utility := withGiven "cat" 1
    ⟨"nbsETAvetu", "", [("number-nonblank", 'b'), ("number", 'n'), ("squeeze-blank", 's'),
      ("show-ends", 'E'), ("show-tabs", 'T'), ("show-all", 'A')]⟩ fun given => do
  let isSeen := given.has 'v' || given.has 'e' || given.has 't' || given.has 'A'
  let hasEnds := given.has 'E' || given.has 'e' || given.has 'A'
  let hasTabs := given.has 'T' || given.has 't' || given.has 'A'
  let octet (b : UInt8) : Bytes :=
    if b = 0x0a then if hasEnds then [0x24, b] else [b]
    else if b = 0x09 then if hasTabs then ascii "^I" else [b]
    else if isSeen then shownOctet b else [b]
  let number (n : Option Nat) (line : Bytes) : Bytes :=
    match n with
    | some n => fill 6 false (decimal n) ++ 0x09 :: line.flatMap octet
    | none => line.flatMap octet
  contents "cat" plainly given.operands fun _ octets => do
    let lines := linesOf octets
    let lines := if given.has 's' then
        (([] :: lines).zip lines).filterMap fun (before, line) =>
          if before = [0x0a] && line = [0x0a] then none else some line
      else lines
    let counts (line : Bytes) : Bool :=
      if given.has 'b' then line ≠ [0x0a] else given.has 'n'
    emit (numbered counts number 1 lines)

/-- Arguments in which a number behind a hyphen is an option of its own, and one behind a plus
sign if it may be. -/
def withCount (plus : Bool) : List Bytes → List Bytes
  | [] => []
  | arg :: args =>
    match arg with
    | 0x2b :: digits =>
      if plus && (number? digits).isSome then ascii "-n" :: arg :: args else arg :: args
    | 0x2d :: digits =>
      if (number? digits).isSome then ascii "-n" :: digits :: args else arg :: args
    | _ => arg :: args

/-- A number with the sign that may stand before it. -/
def signed? (octets : Bytes) : Option (Option UInt8 × Nat) :=
  match octets with
  | 0x2d :: digits => (number? digits).map fun n => (some 0x2d, n)
  | 0x2b :: digits => (number? digits).map fun n => (some 0x2b, n)
  | digits => (number? digits).map fun n => (none, n)

/-- Writes a part of each operand, under its name if there are several.  `part` chooses it from
lines or from octets, which are taken for lines of their own. -/
def partsOf (tool : String) (part : Option UInt8 × Nat → List Bytes → List Bytes) : Utility :=
    fun args =>
  withGiven tool 1
    ⟨"qvfz", "nc", [("lines", 'n'), ("bytes", 'c'), ("quiet", 'q'), ("verbose", 'v')]⟩
    (fun given => do
      let octetwise := given.has 'c'
      let asked := if octetwise then given.value? 'c' else given.value? 'n'
      match signed? (asked.getD (ascii "10")) with
      | none =>
        complainOf tool (ascii ("invalid number of " ++ if octetwise then "bytes: "
          else "lines: ") ++ quoted (asked.getD []))
        finish 1
      | some amount =>
        let titled := (1 < given.operands.length || given.has 'v') && !given.has 'q'
        let operands := if given.operands = [] then [[0x2d]] else given.operands
        let results ← operands.zipIdx.mapM fun (operand, index) => do
          match ← content? operand with
          | .error fault =>
            let wording := if fault = .isDirectory then
                ascii "error reading " ++ wordQuoted operand ++ ascii (": " ++ reason fault)
              else ascii "cannot open " ++ wordQuoted operand ++
                ascii (" for reading: " ++ reason fault)
            complainOf tool wording
            return false
          | .ok octets =>
            let name := if operand = [0x2d] then ascii "standard input" else operand
            if titled then
              emit ((if index = 0 then [] else [0x0a]) ++ ascii "==> " ++ name ++ ascii " <==\n")
            emit (part amount (if octetwise then octets.map ([·]) else linesOf octets)).flatten
            return true
        finish (if results.all id then 0 else 1)) (withCount (tool = "tail") args)

/-- Writes the first lines, or all but the last ones. -/
def head : Utility := partsOf "head" fun (sign, n) lines =>
  if sign = some 0x2d then lines.take (lines.length - n) else lines.take n

/-- Writes the last lines, or those from a number on. -/
def tail : Utility := partsOf "tail" fun (sign, n) lines =>
  if sign = some 0x2b then lines.drop (n - 1) else lines.drop (lines.length - n)

/-- The lines, words, octets and the longest line of octets. -/
def measures (octets : Bytes) : List Nat :=
  let pairs := (0x20 :: octets).zip octets
  let words := pairs.filter fun (before, here) => Arithmetic.isGap before && !Arithmetic.isGap here
  let longest := ((linesOf octets).map fun line => (withoutFeed line).length).foldl max 0
  [octets.count 0x0a, words.length, octets.length, octets.length, longest]

/-- Whether the input is a file, so that its size is known ahead. -/
def isFileInput : Eval Bool := do
  let machine ← get
  match (machine.channels.lookup 0).bind fun id => machine.streams[id]? with
  | some (.file _ _ _) => return true
  | _ => return false

/-- The sum of some numbers. -/
def total : List Nat → Nat
  | [] => 0
  | n :: rest => n + total rest

/-- Counts lines, words and octets. -/
def wc : Utility := withGiven "wc" 1
    ⟨"lwcmL", "", [("lines", 'l'), ("words", 'w'), ("bytes", 'c'), ("chars", 'm'),
      ("max-line-length", 'L')]⟩
    fun given => do
  let letters := if given.options = [] then ['l', 'w', 'c'] else given.options.map (·.1)
  let chosen (counts : List Nat) : List Nat :=
    ((['l', 'w', 'm', 'c', 'L'].zip counts).filter fun (letter, _) => letters.contains letter).map
      (·.2)
  let operands := if given.operands = [] then [[0x2d]] else given.operands
  let known ← isFileInput
  let found ← operands.mapM fun operand => do return (operand, ← content? operand)
  let sizes := found.map fun (operand, content) =>
    match content with
    | .ok octets => if operand = [0x2d] && !known then none else some octets.length
    | .error _ => some 0
  let isSingle := (chosen [0, 0, 0, 0, 0]).length = 1 && operands.length = 1
  let isUnsized := sizes.any Option.isNone ||
    found.any fun (_, content) => content matches .error .isDirectory
  let width := if isSingle then 1
    else if isUnsized then 7
    else (decimal (total (sizes.map fun size => size.getD 0))).length
  let line (counts : List Nat) (name : Bytes) : Eval Unit :=
    emit ([0x20].intercalate ((chosen counts).map fun n => fill width false (decimal n)) ++
      name ++ [0x0a])
  let results ← found.mapM fun (operand, content) => do
    let name := if given.operands = [] then [] else 0x20 :: operand
    match content with
    | .ok octets =>
      line (measures octets) name
      return some (measures octets)
    | .error fault =>
      complainOf "wc" (plainly operand fault)
      if fault = .isDirectory then line [0, 0, 0, 0, 0] name
      return none
  if 1 < operands.length then
    let totals := (results.filterMap id).foldl (fun sums counts => List.zipWith (· + ·) sums counts)
      [0, 0, 0, 0, 0]
    line totals (ascii " total")
  finish (if results.all Option.isSome then 0 else 1)

/-- Writes the lines of each operand in opposite order. -/
def tac : Utility := withGiven "tac" 1 ⟨"br", "s", []⟩ fun given =>
  contents "tac" (fun operand fault =>
      if fault = .isDirectory then operand ++ ascii ": read error: Invalid argument"
      else ascii "failed to open " ++ wordQuoted operand ++
        ascii (" for reading: " ++ reason fault))
    given.operands fun _ octets => emit (linesOf octets).reverse.flatten

/-- Writes lines with numbers in front. -/
def nl : Utility := withGiven "nl" 1 ⟨"p", "bwsvinfhdl", []⟩ fun given => do
  let width := ((given.value? 'w').bind number?).getD 6
  let separator := (given.value? 's').getD [0x09]
  let counts (line : Bytes) : Bool :=
    match given.value? 'b' with
    | some style => style = ascii "a" || (style ≠ ascii "n" && line ≠ [0x0a])
    | none => line ≠ [0x0a]
  let shown (n : Option Nat) (line : Bytes) : Bytes :=
    (match n with
    | some n => fill width false (decimal n) ++ separator
    | none => List.replicate (width + separator.length) 0x20) ++ withoutFeed line ++ [0x0a]
  contents "nl" plainly given.operands fun _ octets =>
    emit (numbered counts shown 1 (linesOf octets))

/-- Letters without their case. -/
def folded (octets : Bytes) : Bytes :=
  octets.map fun b => if 0x61 ≤ b && b ≤ 0x7a then b - 0x20 else b

/-- Groups neighbours that are alike. -/
def groups (alike : Bytes → Bytes → Bool) : List Bytes → List (List Bytes)
  | [] => []
  | line :: lines =>
    match groups alike lines with
    | (first :: others) :: rest =>
      if alike line first then (line :: first :: others) :: rest
        else [line] :: (first :: others) :: rest
    | rest => [line] :: rest

/-- Writes lines that follow each other and are alike once. -/
def uniq : Utility := withGiven "uniq" 1
    ⟨"cdui", "fsw", [("count", 'c'), ("repeated", 'd'), ("unique", 'u'), ("ignore-case", 'i')]⟩
    fun given => do
  match ← content? (given.operands.headD [0x2d]) with
  | .error fault =>
    let operand := given.operands.headD []
    complainOf "uniq" (if fault = .isDirectory then
      ascii "error reading " ++ wordQuoted operand ++ ascii (": " ++ reason fault)
      else plainly operand fault)
    finish 1
  | .ok octets =>
    let skipFields (n : Nat) (line : Bytes) : Bytes :=
      n.fold (fun _ _ line => (line.dropWhile Arithmetic.isGap).dropWhile fun b =>
        !Arithmetic.isGap b) line
    let key (line : Bytes) : Bytes :=
      let line := skipFields (((given.value? 'f').bind number?).getD 0) line
      let line := line.drop (((given.value? 's').bind number?).getD 0)
      let line := match (given.value? 'w').bind number? with
        | some n => line.take n
        | none => line
      if given.has 'i' then folded line else line
    let lines := (linesOf octets).map withoutFeed
    (groups (fun a b => key a = key b) lines).forM fun group => do
      let isChosen := (!given.has 'd' || 1 < group.length) && (!given.has 'u' || group.length = 1)
      if isChosen then
        let count := if given.has 'c' then fill 7 false (decimal group.length) ++ [0x20] else []
        emit (count ++ group.headD [] ++ [0x0a])
    finish 0

/-- A number at the head of a line, as a sign, whole digits and digits behind the point. -/
def numeral (line : Bytes) : Int :=
  let line := line.dropWhile Arithmetic.isGap
  let isNegative := line.head? = some 0x2d
  let line := if isNegative then line.tail else line
  let isDigit (b : UInt8) : Bool := 0x30 ≤ b && b ≤ 0x39
  let whole := line.takeWhile isDigit
  let rest := line.drop whole.length
  let places := if rest.head? = some 0x2e then (rest.tail.takeWhile isDigit).take 30 else []
  let scaled := (number? (whole ++ places ++ List.replicate (30 - places.length) 0x30)).getD 0
  if isNegative then -(scaled : Int) else scaled

/-- A place in a line: a field and an octet of it, both counted from one. -/
structure SortPlace where
  field : Nat
  octet : Nat
deriving DecidableEq, Repr

/-- What lines are sorted by. -/
structure SortKey where
  start : SortPlace
  stop : Option SortPlace
  options : List Char
deriving DecidableEq, Repr

/-- The place and the options that a part of a key is. -/
def SortPlace.read? (octets : Bytes) : Option (SortPlace × List Char) := do
  let isDigit (b : UInt8) : Bool := 0x30 ≤ b && b ≤ 0x39
  let digits := octets.takeWhile isDigit
  let field ← number? digits
  let rest := octets.drop digits.length
  let inner := if rest.head? = some 0x2e then rest.tail.takeWhile isDigit else []
  let rest := if rest.head? = some 0x2e then rest.drop (inner.length + 1) else rest
  return (⟨field, (number? inner).getD 0⟩, rest.map fun b => Char.ofNat b.toNat)

/-- The key that a value is. -/
def SortKey.read? (value : Bytes) : Option SortKey := do
  match splitAt 0x2c value with
  | [first] =>
    let (start, options) ← SortPlace.read? first
    return ⟨start, none, options⟩
  | [first, second] =>
    let (start, options) ← SortPlace.read? first
    let (stop, more) ← SortPlace.read? second
    return ⟨start, some stop, options ++ more⟩
  | _ => none

/-- The fields of a line.  Where nothing divides them, blanks in front belong to a field. -/
def fieldsOf (separator : Option UInt8) (line : Bytes) : List Bytes :=
  match separator with
  | some separator => splitAt separator line
  | none =>
    let isBlank (b : UInt8) : Bool := b = 0x20 || b = 0x09
    (line.foldl (fun (fields, before) b =>
      if isBlank b && !before then ([b] :: fields, true)
      else match fields with
        | [] => ([[b]], isBlank b)
        | field :: others => ((b :: field) :: others, isBlank b))
      (([] : List Bytes), true)).1.reverse.map List.reverse

/-- The part of a line that a key means. -/
def SortKey.part (key : SortKey) (separator : Option UInt8) (line : Bytes) : Bytes :=
  let fields := fieldsOf separator line
  let joint : Bytes := separator.toList
  let isBlankless := key.options.contains 'b' || key.options.contains 'n'
  let trim (field : Bytes) : Bytes :=
    if isBlankless then field.dropWhile Arithmetic.isGap else field
  let upTo : List Bytes := match key.stop with
    | some stop =>
      if stop.octet = 0 then fields.take stop.field
      else fields.take (stop.field - 1) ++
        ((fields[stop.field - 1]?).toList.map (·.take stop.octet))
    | none => fields
  match upTo.drop (key.start.field - 1) with
  | [] => []
  | first :: others => joint.intercalate ((trim first).drop (key.start.octet - 1) :: others)

/-- How two texts stand to each other under options. -/
def compareUnder (options : List Char) (a b : Bytes) : Ordering :=
  let plain (a b : Bytes) : Ordering := if a = b then .eq else if precedes a b then .lt else .gt
  let prepare (octets : Bytes) : Bytes :=
    let octets := if options.contains 'b' then octets.dropWhile Arithmetic.isGap else octets
    if options.contains 'f' then folded octets else octets
  let order := if options.contains 'n' || options.contains 'g' then compare (numeral a) (numeral b)
    else plain (prepare a) (prepare b)
  if options.contains 'r' then order.swap else order

/-- Writes the lines of all operands in order. -/
def sort : Utility := withGiven "sort" 2
    ⟨"rnufbscCgdhimMRVz", "ktoST",
      [("reverse", 'r'), ("numeric-sort", 'n'), ("unique", 'u'), ("key", 'k'),
      ("field-separator", 't'), ("output", 'o'), ("ignore-case", 'f'), ("stable", 's'),
      ("check", 'c')]⟩
    fun given => do
  let general := (given.options.map (·.1)).filter fun letter => "rnfbg".toList.contains letter
  let separator := (given.value? 't').bind List.head?
  let wrong := (given.values 'k').find? fun value => (SortKey.read? value).isNone
  let zero := (given.values 'k').find? fun value => (SortKey.read? value).any fun key =>
      key.start.field = 0
  match wrong, zero with
  | some value, _ =>
    complainOf "sort"
      (ascii "invalid number at field start: invalid count at start of " ++ quoted value)
    finish 2
  | _, some value =>
    complainOf "sort" (ascii "field number is zero: invalid field specification " ++ quoted value)
    finish 2
  | none, none =>
    let keys := (given.values 'k').filterMap SortKey.read?
    let byKeys (a b : Bytes) : Ordering :=
      if keys = [] then compareUnder general a b
      else keys.foldl (fun order key =>
        let options := if key.options = [] then general else key.options
        let key := { key with options }
        order.then (compareUnder options (key.part separator a) (key.part separator b))) .eq
    let whole (a b : Bytes) : Ordering :=
      if given.has 's' || given.has 'u' then byKeys a b
      else (byKeys a b).then (compareUnder (general.filter (· = 'r')) a b)
    let operands := if given.operands = [] then [[0x2d]] else given.operands
    let found ← operands.mapM fun operand => do return (operand, ← content? operand)
    match found.find? fun (_, content) => content matches .error _ with
    | some (operand, .error fault) =>
      let action := if fault = .isDirectory then "read failed: " else "cannot read: "
      complainOf "sort" (ascii action ++ plainly operand fault)
      finish 2
    | _ =>
      let lines := found.flatMap fun (_, content) =>
        match content with
        | .ok octets => (linesOf octets).map withoutFeed
        | .error _ => []
      if given.has 'c' || given.has 'C' then
        match (lines.zip lines.tail).zipIdx.find? fun ((a, b), _) =>
            whole a b = .gt || (given.has 'u' && byKeys a b = .eq) with
        | some ((_, b), index) =>
          let name := if operands = [[0x2d]] then ascii "-" else operands.headD []
          if given.has 'c' then
            complainOf "sort" (name ++ ascii s!":{index + 2}: disorder: " ++ b)
          finish 1
        | none => finish 0
      else
        let sorted := lines.mergeSort fun a b => whole a b ≠ .gt
        let kept := if given.has 'u' then
            (groups (fun a b => byKeys a b = .eq) sorted).filterMap List.head?
          else sorted
        let octets := kept.flatMap fun line => line ++ [0x0a]
        finish 0
        match given.value? 'o' with
        | none => emit octets
        | some path =>
          match ← change fun files => files.write ⟨path⟩ octets with
          | none => pure ()
          | some fault =>
            complainOf "sort" (ascii "open failed: " ++ plainly path fault)
            finish 2

end EngineFuzz.Shell.Tool
