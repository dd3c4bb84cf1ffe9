import EngineFuzz.Shell.Tool.Lines
/-!
# Tools for the octets of lines

Tools that exchange octets, cut parts out of lines, put lines side by side and turn them round.
-/

namespace EngineFuzz.Shell.Tool

open Text (Bytes)

/-! ### Exchange -/

/-- An item of a set of octets. -/
inductive SetItem where
  | octets (members : Bytes)
  /-- A class; letters of either case are told apart from others. -/
  | named (name : String) (members : Bytes)
  /-- Repeats an octet, as often as is needed if no number is given. -/
  | repeated (octet : UInt8) (count : Option Nat)
deriving DecidableEq, Repr

/-- The octet at the head of a set, which may be written with a backslash, and what is left. -/
def setOctet : Bytes → Option (UInt8 × Bytes)
  | [] => none
  | 0x5c :: b :: rest =>
    if isOctal b then some (octal (b :: rest))
    else some ((escapeLetter? b).getD b, rest)
  | b :: rest => some (b, rest)

/-- The octets from one to another. -/
def interval (low high : UInt8) : Bytes :=
  (List.range (high.toNat + 1 - low.toNat)).map fun n => (low.toNat + n).toUInt8

/-- The items of a set, or what is wrong with it.  The bound is its length. -/
def setItems : (bound : Nat) → Bytes → Except Bytes (List SetItem)
  | _, [] => .ok []
  | 0, _ => .ok []
  | bound + 1, octets => do
    match PatternPart.class? octets, octets with
    | some (intervals, length), _ =>
      let name := (Text.lossy ((octets.drop 2).take (length - 4)))
      let members := intervals.flatMap fun (low, high) => interval low high
      return .named name members :: (← setItems bound (octets.drop length))
    | none, 0x5b :: b :: 0x2a :: rest =>
      let digits := rest.takeWhile fun b => 0x30 ≤ b && b ≤ 0x39
      if (rest.drop digits.length).head? = some 0x5d then
        return .repeated b ((number? digits).filter (0 < ·)) ::
          (← setItems bound (rest.drop (digits.length + 1)))
      else return .octets [0x5b] :: (← setItems bound (b :: 0x2a :: rest))
    | none, octets =>
      match setOctet octets with
      | none => return []
      | some (low, 0x2d :: rest) =>
        match setOctet rest with
        | some (high, left) =>
          if high < low then
            throw (ascii "range-endpoints of '" ++ [low, 0x2d, high] ++
              ascii "' are in reverse collating sequence order")
          else return .octets (interval low high) :: (← setItems bound left)
        | none => return [.octets [low, 0x2d]]
      | some (low, rest) => return .octets [low] :: (← setItems bound rest)

/-- The members of items, of which those that repeat fill up to a length. -/
def members (items : List SetItem) (length : Nat) : Bytes :=
  let fixed := total (items.map fun item =>
    match item with
    | .octets members | .named _ members => members.length
    | .repeated _ count => count.getD 0)
  items.flatMap fun item =>
    match item with
    | .octets members | .named _ members => members
    | .repeated octet count => List.replicate (count.getD (length - fixed)) octet

/-- The octets outside some, in order. -/
def complement (octets : Bytes) : Bytes := (interval 0 255).filter fun b => !octets.contains b

/-- Leaves one of each run of an octet out of some. -/
def squeeze (octets : Bytes) (text : Bytes) : Bytes :=
  (text.foldl (fun (kept, before) b =>
    if before = some b && octets.contains b then (kept, before) else (b :: kept, some b))
    (([] : Bytes), (none : Option UInt8))).1.reverse

/-- Pairs of octets and what they become: the last one goes on for all that are left. -/
def pairs (first second : Bytes) : List (UInt8 × UInt8) :=
  match second.getLast? with
  | none => []
  | some last => first.zip (second ++ List.replicate (first.length - second.length) last)

/-- Exchanges, deletes or squeezes octets. -/
def tr : Utility := withGiven "tr" 1
    ⟨"cCdst", "", [("complement", 'c'), ("delete", 'd'), ("squeeze-repeats", 's'),
      ("truncate-set1", 't')]⟩
    fun given => do
  let isOutside := given.has 'c' || given.has 'C'
  let isDeletion := given.has 'd'
  let least := if isDeletion == given.has 's' then 2 else 1
  let most := if isDeletion && !given.has 's' then 1 else 2
  let explain (text : Bytes) (more : String) : Eval Unit := do
    complainOf "tr" text
    if more ≠ "" then complain (ascii more)
    complain (ascii "Try 'tr --help' for more information.")
    finish 1
  match given.operands with
  | [] => misuse "tr" 1 (ascii "missing operand")
  | first :: others =>
    if others.length + 1 < least then
      explain (ascii "missing operand after " ++ quoted first)
        (if isDeletion then "Two strings must be given when both deleting and squeezing repeats."
          else "Two strings must be given when translating.")
    else if most < others.length + 1 then
      explain (ascii "extra operand " ++ quoted ((others[most - 1]?).getD []))
        (if isDeletion && others.length = 1 then
          "Only one string may be given when deleting without squeezing repeats." else "")
    else
      match setItems first.length first, setItems (others.headD []).length (others.headD []) with
      | .error text, _ | _, .error text =>
        complainOf "tr" text
        finish 1
      | .ok items, .ok otherItems =>
        if items.any fun item => item matches .repeated _ none then
          complainOf "tr" (ascii "the [c*] repeat construct may not appear in string1")
          finish 1
        else
          let named := members items 0
          let source := if isOutside then complement named else named
          let target := members otherItems source.length
          let isCase (item : SetItem) : Bool :=
            match item with
            | .named name _ => name = "upper" || name = "lower"
            | _ => false
          let input ← readAll
          finish 0
          if isDeletion then
            let kept := input.filter fun b => !source.contains b
            emit (if given.has 's' then squeeze target kept else kept)
          else if others = [] then emit (squeeze source input)
          else if target = [] && source ≠ [] then
            complainOf "tr" (ascii "when not truncating set1, string2 must be non-empty")
            finish 1
          else
            let letters := interval 0x41 0x5a
            let small := interval 0x61 0x7a
            let changes :=
              if items.all isCase && otherItems.all isCase && items.length = 1 then
                if source = small && target = letters then small.zip letters else letters.zip small
              else if given.has 't' then source.zip target
              else pairs source target
            let table := changes.reverse
            let changed := input.map fun b => (table.lookup b).getD b
            emit (if given.has 's' then squeeze target changed else changed)

/-! ### Columns -/

/-- Numbers from one to another, of which either may be missing. -/
abbrev NumberRange := Nat × Option Nat

/-- The ranges that a list is. -/
def ranges? (kind : String) (octets : Bytes) : Except Bytes (List NumberRange) :=
  (splitAt 0x2c octets).mapM fun item =>
    let wrong (part : Bytes) : Except Bytes NumberRange :=
      if part = [] then .error (ascii ("invalid range with no endpoint: -"))
      else .error (ascii ("invalid " ++ kind ++ " value ") ++ quoted part)
    match splitAt 0x2d item with
    | [single] =>
      match number? single with
      | some 0 => .error (ascii (if kind = "field" then "fields are numbered from 1"
          else "byte/character positions are numbered from 1"))
      | some n => .ok (n, some n)
      | none => wrong single
    | [low, high] =>
      match number? low, number? high with
      | some 0, _ => .error (ascii (if kind = "field" then "fields are numbered from 1"
          else "byte/character positions are numbered from 1"))
      | some a, some b =>
        if b < a then .error (ascii "invalid decreasing range") else .ok (a, some b)
      | some a, none => if high = [] then .ok (a, none) else wrong high
      | none, some b => if low = [] then .ok (1, some b) else wrong low
      | none, none => wrong (if low = [] then high else low)
    | _ => wrong item

/-- Whether a number lies in one of the ranges. -/
def isWithin (ranges : List NumberRange) (n : Nat) : Bool :=
  ranges.any fun (low, high) => low ≤ n && high.all (n ≤ ·)

/-- Writes parts of lines. -/
def cut : Utility := withGiven "cut" 1
    ⟨"snzC", "bcfdO", [("bytes", 'b'), ("characters", 'c'), ("fields", 'f'), ("delimiter", 'd'),
      ("only-delimited", 's'), ("output-delimiter", 'O'), ("complement", 'C')]⟩ fun given => do
  let byFields := given.has 'f'
  let list := (given.value? 'f').or ((given.value? 'b').or (given.value? 'c'))
  let delimiter := (given.value? 'd').getD [0x09]
  match list with
  | none => misuse "cut" 1 (ascii "you must specify a list of bytes, characters, or fields")
  | some list =>
    if 1 < delimiter.length then misuse "cut" 1 (ascii "the delimiter must be a single character")
    else if given.has 'd' && !byFields then
      misuse "cut" 1 (ascii "an input delimiter may be specified only when operating on fields")
    else match ranges? (if byFields then "field" else "byte/character") list with
      | .error text => misuse "cut" 1 text
      | .ok ranges =>
        let isKept (index : Nat) : Bool := isWithin ranges (index + 1) != given.has 'C'
        let joint := (given.value? 'O').getD (if byFields then delimiter else [])
        let one (line : Bytes) : Bytes :=
          let body := withoutFeed line
          if byFields then
            let fields := splitAt (delimiter.headD 0) body
            if fields.length = 1 then if given.has 's' then [] else body ++ [0x0a]
            else
              joint.intercalate ((fields.zipIdx.filter fun (_, index) => isKept index).map (·.1)) ++
                [0x0a]
          else ((body.zipIdx.filter fun (_, index) => isKept index).map (·.1)) ++ [0x0a]
        contents "cut" plainly given.operands fun _ octets => emit ((linesOf octets).flatMap one)

/-- The delimiters of a list that is used again and again. -/
def delimiters (octets : Bytes) : List Bytes :=
  let resolved := (unescape octets.length octets).1
  if resolved = [] then [[]] else resolved.map fun b => if b = 0 then [] else [b]

/-- Puts items together with delimiters that are used in turn. -/
def joinInTurn (marks : List Bytes) (items : List Bytes) : Bytes :=
  match items with
  | [] => []
  | first :: others =>
    first ++
      (others.zipIdx.flatMap fun (item, index) => (marks[index % marks.length]?).getD [] ++ item)

/-- Puts the lines of the operands side by side, or those of each operand one after the other. -/
def paste : Utility := withGiven "paste" 1
    ⟨"sz", "d", [("serial", 's'), ("delimiters", 'd')]⟩ fun given => do
  let marks := delimiters ((given.value? 'd').getD [0x09])
  let operands := if given.operands = [] then [[0x2d]] else given.operands
  let inputs := operands.count [0x2d]
  let input ← if inputs = 0 then pure [] else readAll
  let inputLines := (linesOf input).map withoutFeed
  let found ← operands.zipIdx.mapM fun (operand, index) => do
    if operand = [0x2d] then
      let turn := (operands.take index).count [0x2d]
      return some (if given.has 's' then if turn = 0 then inputLines else []
        else (inputLines.zipIdx.filter fun (_, n) => n % inputs = turn).map (·.1))
    else match ← content? operand with
      | .ok octets => return some ((linesOf octets).map withoutFeed)
      | .error fault =>
        complainOf "paste" (plainly operand fault)
        return none
  if found.any Option.isNone && !given.has 's' then finish 1
  else
    let columns := found.filterMap id
    if given.has 's' then columns.forM fun lines => emit (joinInTurn marks lines ++ [0x0a])
    else
      (List.range ((columns.map List.length).foldl max 0)).forM fun n =>
        emit (joinInTurn marks (columns.map fun lines => (lines[n]?).getD []) ++ [0x0a])
    finish (if found.all Option.isSome then 0 else 1)

/-- Writes lines with their octets in opposite order. -/
def rev : Utility := withGiven "rev" 1 (flagsOf "z") fun given =>
  contents "rev" (fun operand fault => ascii "cannot open " ++ operand ++
    ascii (": " ++ reason fault)) given.operands fun _ octets =>
      emit ((linesOf octets).flatMap fun line =>
        (withoutFeed line).reverse ++ (if line.getLast? = some 0x0a then [0x0a] else []))
where
  /-- A table of options that stand for themselves. -/
  flagsOf (flags : String) : OptionTable := ⟨flags, "", []⟩

/-- Breaks a line into pieces of a width.  The bound is its length. -/
def pieces (width : Nat) : (bound : Nat) → Bytes → List Bytes
  | 0, _ => []
  | bound + 1, line =>
    if line.length ≤ width then [line] else line.take width :: pieces width bound (line.drop width)

/-- Breaks lines that are too long. -/
def fold : Utility := withGiven "fold" 1 ⟨"bs", "w", [("width", 'w')]⟩ fun given => do
  let width := ((given.value? 'w').bind number?).getD 80
  contents "fold" plainly given.operands fun _ octets =>
    emit ((linesOf octets).flatMap fun line =>
      let body := withoutFeed line
      [0x0a].intercalate (pieces (max 1 width) (body.length + 1) body) ++
        (if line.getLast? = some 0x0a then [0x0a] else []))

/-- A decimal number, as a whole number of the units of its last place, and how many places it
has. -/
def decimal? (octets : Bytes) : Option (Int × Nat) :=
  let isNegative := octets.head? = some 0x2d
  let body := if isNegative || octets.head? = some 0x2b then octets.tail else octets
  match splitAt 0x2e body with
  | [whole] => (number? whole).map fun n => (if isNegative then -(n : Int) else n, 0)
  | [whole, places] => (number? (whole ++ places)).map fun n =>
      (if isNegative then -(n : Int) else n, places.length)
  | _ => none

/-- A whole number of units, written with decimal places. -/
def withPlaces (n : Int) (places : Nat) : Bytes :=
  let digits := decimal n.natAbs
  let digits := List.replicate (places + 1 - digits.length) 0x30 ++ digits
  let point := if places = 0 then [] else 0x2e :: digits.drop (digits.length - places)
  (if n < 0 then [0x2d] else []) ++ digits.take (digits.length - places) ++ point

/-- Arguments in which negative numbers are told from options. -/
def withNegatives (args : List Bytes) : List Bytes :=
  let isNegative (arg : Bytes) : Bool := arg.head? = some 0x2d && (decimal? arg).isSome
  if args.any isNegative && !args.contains (ascii "--") then
    args.takeWhile (fun arg => !isNegative arg) ++ ascii "--" ::
      args.dropWhile (fun arg => !isNegative arg)
  else args

/-- Writes numbers in order. -/
def seq : Utility := fun args => withGiven "seq" 1
    ⟨"w", "sf", [("separator", 's'), ("equal-width", 'w'), ("format", 'f')]⟩ (fun given => do
  match given.operands.find? fun operand => (decimal? operand).isNone with
  | some operand => misuse "seq" 1 (ascii "invalid floating point argument: " ++ quoted operand)
  | none =>
    match given.operands.filterMap decimal? with
    | [] => misuse "seq" 1 (ascii "missing operand")
    | found =>
      let (first, step, last) := match found with
        | [last] => (((1 : Int), 0), ((1 : Int), 0), last)
        | [first, last] => (first, (1, 0), last)
        | first :: step :: last :: _ => (first, step, last)
        | [] => ((1, 0), (1, 0), (0, 0))
      let places := max first.2 (if found.length = 3 then step.2 else 0)
      let units := max places last.2
      let scaled (n : Int × Nat) : Int := n.1 * Int.ofNat (Nat.pow 10 (units - n.2))
      if 3 < found.length then
        misuse "seq" 1 (ascii "extra operand " ++ quoted ((given.operands[3]?).getD []))
      else if step.1 = 0 then
        misuse "seq" 1 (ascii "invalid Zero increment value: " ++
          quoted ((given.operands[1]?).getD []))
      else
        let distance :=
          if 0 < step.1 then scaled last - scaled first else scaled first - scaled last
        let count := if distance < 0 then 0 else (distance / (scaled step).natAbs).toNat + 1
        let shown (n : Int) : Bytes :=
          withPlaces (n / Int.ofNat (Nat.pow 10 (units - places))) places
        let numbers := (List.range count).map fun (n : Nat) =>
            shown (scaled first + (n : Int) * scaled step)
        let width := (numbers.map List.length).foldl max 0
        let padded (text : Bytes) : Bytes :=
          if !given.has 'w' then text
          else if text.head? = some 0x2d then
            0x2d :: List.replicate (width - text.length) 0x30 ++ text.tail
          else List.replicate (width - text.length) 0x30 ++ text
        let joint := (given.value? 's').getD [0x0a]
        finish 0
        match given.value? 'f' with
        | some format =>
          numbers.zipIdx.forM fun (_, index) => do
            let n := scaled first + Int.ofNat index * scaled step
            let whole := format.map fun b => if b = 0x67 || b = 0x66 then 0x64 else b
            let _ ← formatOnce format.length whole [withPlaces n units]
            emit (if index + 1 < count then joint else [0x0a])
        | none => if numbers ≠ [] then emit (joint.intercalate (numbers.map padded) ++ [0x0a]))
  (withNegatives args)

end EngineFuzz.Shell.Tool
