import EngineFuzz.Toml.Cursor
/-!
# Words of a configuration document

Blanks, comments, strings, numbers, dates and keys.

* `blanks`, `lineEnd`, `blankLines`, `commentedLines` — what may stand between words;
* `basicBody`, `basicBodyLines`, `literalBodyLines` — the four kinds of string, from behind the
  opening quotation marks;
* `integer`, `float`, `datetime` — the words that begin with a digit or a sign;
* `keyPath` — keys joined by dots.
-/

namespace EngineFuzz.Toml

/-- The blanks within a line. -/
def isBlank (c : Char) : Bool := c = ' ' || c = '\t'

/-- The characters of a comment: all but controls other than the tabulator. -/
def isComment (c : Char) : Bool := c = '\t' || (' ' ≤ c && c ≤ '~') || 0x80 ≤ c.toNat

/-- The characters of a basic string that stand for themselves. -/
def isBasic (c : Char) : Bool := isComment c && c ≠ '"' && c ≠ '\\'

/-- The characters of a literal string. -/
def isLiteral (c : Char) : Bool := isComment c && c ≠ '\''

/-- The characters of a key without quotation marks. -/
def isBare (c : Char) : Bool := c.isAlphanum || c = '_' || c = '-'

/-- What follows a line end, if one comes next. -/
def afterLineEnd? : List Char → Option (List Char)
  | '\n' :: rest => some rest
  | '\r' :: '\n' :: rest => some rest
  | _ => none

/-- What follows blanks and line ends. -/
def afterBlankLines : List Char → List Char
  | ' ' :: rest => afterBlankLines rest
  | '\t' :: rest => afterBlankLines rest
  | '\n' :: rest => afterBlankLines rest
  | '\r' :: '\n' :: rest => afterBlankLines rest
  | cs => cs

/-- Skipping never adds characters. -/
theorem length_afterBlankLines (cs : List Char) : (afterBlankLines cs).length ≤ cs.length := by
  fun_induction afterBlankLines cs <;> simp <;> omega

/-- A line end takes a character at least. -/
theorem length_afterLineEnd? {cs rest : List Char} (h : afterLineEnd? cs = some rest) :
    rest.length < cs.length := by
  unfold afterLineEnd? at h
  split at h <;> cases h <;> simp only [List.length_cons] <;> omega

/-- Skips blanks. -/
def blanks : Reader Unit := do
  let _ ← Reader.takeWhile isBlank

/-- Skips a comment if one comes next. -/
def comment? : Reader Unit := do
  if ← Reader.skip? ['#'] then
    let _ ← Reader.takeWhile isComment

/-- Skips a line end, or finds the end of the document. -/
def lineEnd : Reader Unit := do
  let cs ← Reader.rest
  match cs, afterLineEnd? cs with
  | [], _ => return ()
  | _, some after => Reader.goOn after
  | _, none => Reader.fail

/-- What may stand behind a statement on its line. -/
def restOfLine : Reader Unit := do
  blanks
  comment?
  lineEnd

/-- Skips blanks, line ends and comments; `bound` is more than the number of characters left. -/
def commentedLines : (bound : Nat) → Reader Unit
  | 0 => return ()
  | bound + 1 => do
    let cs ← Reader.rest
    let after := afterBlankLines cs
    Reader.goOn after
    if after.head? = some '#' then
      comment?
      commentedLines bound

/-- The number that hexadecimal digits stand for. -/
def hexNumeral? (digits : List Char) : Option Nat :=
  digits.foldl (fun n c => do
    let n ← n
    if '0' ≤ c ∧ c ≤ '9' then some (16 * n + (c.toNat - 48))
    else if 'a' ≤ c ∧ c ≤ 'f' then some (16 * n + (c.toNat - 87))
    else if 'A' ≤ c ∧ c ≤ 'F' then some (16 * n + (c.toNat - 55))
    else none) (some 0)

/-- The character with the code point that hexadecimal digits stand for. -/
def escapedCodePoint? (digits : List Char) : Option Char := do
  let n ← hexNumeral? digits
  if n < 0xd800 ∨ (0xdfff < n ∧ n < 0x110000) then some (Char.ofNat n) else none

/-- The character that a backslash and a letter stand for. -/
def escapedLetter? : Char → Option Char
  | 'b' => some '\x08'
  | 't' => some '\t'
  | 'n' => some '\n'
  | 'f' => some '\x0c'
  | 'r' => some '\r'
  | '"' => some '"'
  | '\\' => some '\\'
  | _ => none

/-- Reads behind a backslash. -/
def escaped? : List Char → Option (Char × List Char)
  | 'u' :: a :: b :: c :: d :: rest => do return (← escapedCodePoint? [a, b, c, d], rest)
  | 'U' :: a :: b :: c :: d :: e :: f :: g :: h :: rest => do
    return (← escapedCodePoint? [a, b, c, d, e, f, g, h], rest)
  | c :: rest => do return (← escapedLetter? c, rest)
  | [] => none

/-- An escape takes a character at least. -/
theorem length_escaped? {cs rest : List Char} {c : Char} (h : escaped? cs = some (c, rest)) :
    rest.length < cs.length := by
  unfold escaped? at h
  split at h
  · simp only [Option.bind_eq_bind, Option.bind_eq_some_iff, Option.pure_def, Option.some.injEq,
      Prod.mk.injEq] at h
    obtain ⟨_, _, _, rfl⟩ := h
    simp
    omega
  · simp only [Option.bind_eq_bind, Option.bind_eq_some_iff, Option.pure_def, Option.some.injEq,
      Prod.mk.injEq] at h
    obtain ⟨_, _, _, rfl⟩ := h
    simp
    omega
  · simp only [Option.bind_eq_bind, Option.bind_eq_some_iff, Option.pure_def, Option.some.injEq,
      Prod.mk.injEq] at h
    obtain ⟨_, _, _, rfl⟩ := h
    simp
  · cases h

/-- A basic string on one line, from behind its opening quotation mark. -/
def basicBody (cs : List Char) : Option (List Char × List Char) :=
  match cs with
  | [] => none
  | '"' :: rest => some ([], rest)
  | '\\' :: rest =>
    match _h : escaped? rest with
    | none => none
    | some (c, after) => (basicBody after).map fun (text, left) => (c :: text, left)
  | c :: rest =>
    if isBasic c then (basicBody rest).map fun (text, left) => (c :: text, left) else none
termination_by cs.length
decreasing_by
  · have := length_escaped? _h
    simp only [List.length_cons]
    omega
  · simp

/-- A literal string on one line, from behind its opening quotation mark. -/
def literalBody : List Char → Option (List Char × List Char)
  | [] => none
  | '\'' :: rest => some ([], rest)
  | c :: rest =>
    if isLiteral c then (literalBody rest).map fun (text, left) => (c :: text, left) else none

/-- Up to two quotation marks that stand directly behind the closing ones belong to the string. -/
def closingExtra (mark : Char) : List Char → List Char × List Char
  | a :: b :: rest =>
    if a = mark then if b = mark then ([a, b], rest) else ([a], b :: rest) else ([], a :: b :: rest)
  | [a] => if a = mark then ([a], []) else ([], [a])
  | [] => ([], [])

/-- A basic string of several lines, from behind its opening quotation marks and the line end
that may follow them.  A backslash at the end of a line joins it to the next text. -/
def basicBodyLines (cs : List Char) : Option (List Char × List Char) :=
  match cs with
  | [] => none
  | '"' :: '"' :: '"' :: rest => some (closingExtra '"' rest)
  | '\\' :: rest =>
    match _hl : afterLineEnd? (rest.dropWhile isBlank) with
    | some after => basicBodyLines (afterBlankLines after)
    | none =>
      match _h : escaped? rest with
      | none => none
      | some (c, after) => (basicBodyLines after).map fun (text, left) => (c :: text, left)
  | '\r' :: '\n' :: rest => (basicBodyLines rest).map fun (text, left) => ('\n' :: text, left)
  | c :: rest =>
    if isBasic c || c = '"' || c = '\n' then
      (basicBodyLines rest).map fun (text, left) => (c :: text, left)
    else none
termination_by cs.length
decreasing_by
  · have := length_afterLineEnd? _hl
    have := length_afterBlankLines after
    have := (List.dropWhile_sublist isBlank (l := rest)).length_le
    simp only [List.length_cons]
    omega
  · have := length_escaped? _h
    simp only [List.length_cons]
    omega
  · simp only [List.length_cons]
    omega
  · simp

/-- A literal string of several lines, from behind its opening quotation marks and the line end that
may follow them. -/
def literalBodyLines : List Char → Option (List Char × List Char)
  | [] => none
  | '\'' :: '\'' :: '\'' :: rest => some (closingExtra '\'' rest)
  | '\r' :: '\n' :: rest => (literalBodyLines rest).map fun (text, left) => ('\n' :: text, left)
  | c :: rest =>
    if isLiteral c || c = '\'' || c = '\n' then
      (literalBodyLines rest).map fun (text, left) => (c :: text, left)
    else none

/-- Skips a line end directly behind opening quotation marks. -/
def openingLineEnd : Reader Unit := do
  match afterLineEnd? (← Reader.rest) with
  | some after => Reader.goOn after
  | none => return ()

/-- A string of any kind. -/
def string : Reader String := do
  let text ← match ← Reader.rest with
    | '"' :: '"' :: '"' :: after => do
      Reader.goOn after
      openingLineEnd
      Reader.via basicBodyLines
    | '"' :: after => do
      Reader.goOn after
      Reader.via basicBody
    | '\'' :: '\'' :: '\'' :: after => do
      Reader.goOn after
      openingLineEnd
      Reader.via literalBodyLines
    | '\'' :: after => do
      Reader.goOn after
      Reader.via literalBody
    | _ => Reader.fail
  return String.ofList text

/-- Digits behind a first digit; an underscore may stand between two digits. -/
def moreDigits (p : Char → Bool) : List Char → List Char × List Char
  | [] => ([], [])
  | [c] => if p c then ([c], []) else ([], [c])
  | c :: d :: rest =>
    if p c then
      let (digits, left) := moreDigits p (d :: rest)
      (c :: digits, left)
    else if c = '_' && p d then moreDigits p (d :: rest)
    else ([], c :: d :: rest)

/-- One digit or more, without their underscores. -/
def digits (p : Char → Bool) : Reader (List Char) := Reader.via fun cs =>
  match cs with
  | c :: _ => if p c then some (moreDigits p cs) else none
  | [] => none

/-- The decimal digits. -/
def isDecimal (c : Char) : Bool := '0' ≤ c && c ≤ '9'

/-- The number that digits of a base stand for. -/
def numeral (base : Nat) (digits : List Char) : Nat :=
  digits.foldl (fun n c => base * n +
    (if c ≤ '9' then c.toNat - 48 else if c ≤ 'F' then c.toNat - 55 else c.toNat - 87)) 0

/-- A sign; true for minus. -/
def sign : Reader Bool := do
  if ← Reader.skip? ['-'] then return true
  let _ ← Reader.skip? ['+']
  return false

/-- The digits of a decimal number before its point: no zero stands in front of others. -/
def wholeDigits : Reader (List Char) := do
  if ← Reader.skip? ['0'] then return ['0'] else digits isDecimal

/-- A number that 64 bits with a sign can hold. -/
def bounded (negative : Bool) (magnitude : Nat) : Reader Int64 :=
  if negative then
    if magnitude ≤ 1 <<< 63 then return Int64.ofInt (-(magnitude : Int)) else Reader.fail
  else if magnitude < 1 <<< 63 then return Int64.ofNat magnitude else Reader.fail

/-- A hexadecimal digit. -/
def isHexadecimal (c : Char) : Bool :=
  isDecimal c || ('a' ≤ c && c ≤ 'f') || ('A' ≤ c && c ≤ 'F')

/-- An integer in a base, from its first digit on. -/
def unsignedIn (base : Nat) (p : Char → Bool) : Reader Int64 := do
  let magnitude ← digits p
  bounded false (numeral base magnitude)

/-- An integer: decimal with an optional sign, or hexadecimal, octal or binary without one. -/
def integer : Reader Int64 := do
  match ← Reader.rest with
  | '0' :: 'x' :: after => do
    Reader.goOn after
    unsignedIn 16 isHexadecimal
  | '0' :: 'o' :: after => do
    Reader.goOn after
    unsignedIn 8 fun c => '0' ≤ c && c ≤ '7'
  | '0' :: 'b' :: after => do
    Reader.goOn after
    unsignedIn 2 fun c => c = '0' || c = '1'
  | _ => do
    let negative ← sign
    let magnitude ← wholeDigits
    bounded negative (numeral 10 magnitude)

/-- The exponent of a floating-point number. -/
def exponent : Reader Int := do
  if ← Reader.skip? ['e'] then pure () else Reader.skip ['E']
  let negative ← sign
  let magnitude := numeral 10 (← digits isDecimal)
  return if negative then -(magnitude : Int) else magnitude

/-- A floating-point number: a fraction, an exponent or both behind the whole digits, or one of the
words for infinity and for no number.  A positive number past all range is refused. -/
def float : Reader Binary64 := do
  let negative ← sign
  if ← Reader.skip? ['i', 'n', 'f'] then return .infinite negative
  if ← Reader.skip? ['n', 'a', 'n'] then return .nan
  let whole ← wholeDigits
  let fraction ← if ← Reader.skip? ['.'] then digits isDecimal else pure []
  let cs ← Reader.rest
  let power ←
    if cs.head? = some 'e' || cs.head? = some 'E' then exponent
    else if fraction.isEmpty then Reader.fail
    else pure 0
  let number := Binary64.ofDecimal negative (numeral 10 (whole ++ fraction))
      (power - fraction.length)
  if number = .infinite false then Reader.fail
  return number

/-- A number of exactly `count` digits, from `low` to `high`. -/
def fixedDigits (count low high : Nat) : Reader Nat := do
  let n ← Reader.via fun cs =>
    let taken := cs.take count
    if taken.length = count && taken.all isDecimal then some (numeral 10 taken, cs.drop count)
    else none
  if low ≤ n && n ≤ high then return n else Reader.fail

/-- The number of days in a month. -/
def daysIn (year month : Nat) : Nat :=
  if month = 2 then
    if year % 4 = 0 && (year % 100 ≠ 0 || year % 400 = 0) then 29 else 28
  else if month = 4 || month = 6 || month = 9 || month = 11 then 30
  else 31

/-- A day of the calendar. -/
def date : Reader Unit := do
  let year ← fixedDigits 4 0 9999
  Reader.skip ['-']
  let month ← fixedDigits 2 1 12
  Reader.skip ['-']
  let _ ← fixedDigits 2 1 (daysIn year month)

/-- A time of day; a leap second is allowed. -/
def time : Reader Unit := do
  let _ ← fixedDigits 2 0 23
  Reader.skip [':']
  let _ ← fixedDigits 2 0 59
  Reader.skip [':']
  let _ ← fixedDigits 2 0 60
  let cs ← Reader.rest
  match cs with
  | '.' :: d :: _ =>
    if isDecimal d then
      Reader.skip ['.']
      let _ ← Reader.takeWhile isDecimal
  | _ => return ()

/-- The difference of a time from that of the prime meridian. -/
def timeOffset : Reader Unit := do
  if ← Reader.skip? ['Z'] then return ()
  if ← Reader.skip? ['z'] then return ()
  if ← Reader.skip? ['-'] then pure () else Reader.skip ['+']
  let _ ← fixedDigits 2 0 23
  Reader.skip [':']
  let _ ← fixedDigits 2 0 59

/-- Skips what separates a date from a time. -/
def timeSeparator : Reader Unit := do
  if ← Reader.skip? ['T'] then return ()
  if ← Reader.skip? ['t'] then return ()
  Reader.skip [' ']

/-- A date, a time, or both with or without an offset, as it is written. -/
def datetime : Reader String := do
  let before ← Reader.rest
  Reader.either
    (do
      date
      Reader.either
        (do
          timeSeparator
          time
          Reader.either timeOffset (return ()))
        (return ()))
    time
  let after ← Reader.rest
  return String.ofList (before.take (before.length - after.length))

/-- One key, bare or between quotation marks. -/
def key : Reader Key := do
  let (span, text) ← Reader.spanned do
    match (← Reader.rest).head? with
    | some '"' => do
      Reader.skip ['"']
      Reader.via basicBody
    | some '\'' => do
      Reader.skip ['\'']
      Reader.via literalBody
    | _ => do
      let text ← Reader.takeWhile isBare
      if text.isEmpty then Reader.fail else return text
  return ⟨String.ofList text, span⟩

/-- Keys joined by dots; `bound` is more than the number of characters left. -/
def keyPathFrom : (bound : Nat) → Reader (List Key)
  | 0 => Reader.fail
  | bound + 1 => do
    blanks
    let first ← key
    blanks
    if ← Reader.skip? ['.'] then
      return first :: (← keyPathFrom bound)
    return [first]

/-- Keys joined by dots, fewer than the limit: those that lead to the last one, and the last one. -/
def keyPath (limit : Nat) : Reader (List Key × Key) := do
  let cs ← Reader.rest
  let keys ← keyPathFrom (cs.length + 1)
  if limit ≤ keys.length then Reader.fail
  match keys.getLast? with
  | some last => return (keys.dropLast, last)
  | none => Reader.fail

end EngineFuzz.Toml
