import EngineFuzz.Shell.Arithmetic
import EngineFuzz.Shell.Machine
/-!
# Formatted output of the shell

A format is text with escapes and conversions.  Each conversion takes an argument, and the
format is used again for as long as arguments are left.  Arguments that are no numbers where
numbers are wanted are complained about, and count as far as they go.
-/

namespace EngineFuzz.Shell

open Text (Bytes)

/-- Whether an octet is a digit in base eight. -/
def isOctal (b : UInt8) : Bool := 0x30 ≤ b && b ≤ 0x37

/-- The octet that an octal number at the head stands for, of at most three digits, and what is
left. -/
def octal (octets : Bytes) : UInt8 × Bytes :=
  let digits := (octets.take 3).takeWhile isOctal
  ((digits.foldl (fun n (b : UInt8) => 8 * n + (b.toNat - 48)) 0).toUInt8,
    octets.drop digits.length)

/-- The octet that a letter behind a backslash stands for. -/
def escapeLetter? (letter : UInt8) : Option UInt8 :=
  [(0x5c, 0x5c), (0x61, 0x07), (0x62, 0x08), (0x66, 0x0c), (0x6e, 0x0a), (0x72, 0x0d), (0x74, 0x09),
    (0x76, 0x0b)].lookup letter

/-- The octet that a letter behind a backslash stands for in what the shell writes. -/
def outputEscape? (letter : UInt8) : Option UInt8 :=
  if letter = 0x65 then some 0x1b else escapeLetter? letter

/-- The text with its escapes resolved, and whether an escape ends all output.  A zero in front
of an octal number does not count.  The bound is the length. -/
def unescape : (bound : Nat) → Bytes → Bytes × Bool
  | 0, octets => (octets, false)
  | _ + 1, [] => ([], false)
  | bound + 1, 0x5c :: letter :: rest =>
    if letter = 0x63 then ([], true)
    else match outputEscape? letter with
      | some octet =>
        let (more, stop) := unescape bound rest
        (octet :: more, stop)
      | none =>
        if isOctal letter then
          let isIdle := letter = 0x30 && rest.head?.any isOctal
          let (octet, left) := octal (if isIdle then rest else letter :: rest)
          let (more, stop) := unescape bound left
          (octet :: more, stop)
        else
          let (more, stop) := unescape bound (letter :: rest)
          (0x5c :: more, stop)
  | bound + 1, octet :: rest =>
    let (more, stop) := unescape bound rest
    (octet :: more, stop)

/-- Fills a field up to a width. -/
def fill (width : Nat) (left : Bool) (octets : Bytes) : Bytes :=
  let padding := List.replicate (width - octets.length) 0x20
  if left then octets ++ padding else padding ++ octets

/-- How a conversion is to be shown. -/
structure Layout where
  flags : Bytes
  width : Nat
  precision : Option Nat

namespace Layout

/-- Whether a flag is given. -/
def has (layout : Layout) (flag : Char) : Bool := layout.flags.contains flag.toNat.toUInt8

/-- Puts text into its field. -/
def text (layout : Layout) (octets : Bytes) : Bytes :=
  fill layout.width (layout.has '-') (match layout.precision with
    | some n => octets.take n
    | none => octets)

/-- Puts a number into its field, given its sign and its digits. -/
def number (layout : Layout) (sign digits : Bytes) : Bytes :=
  let digits := List.replicate (layout.precision.getD 1 - digits.length) 0x30 ++ digits
  let zeros := if layout.has '0' && !layout.has '-' && layout.precision.isNone then
      List.replicate (layout.width - sign.length - digits.length) 0x30
    else []
  fill layout.width (layout.has '-') (sign ++ zeros ++ digits)

/-- The sign of a number that is shown with one. -/
def sign (layout : Layout) (isNegative : Bool) : Bytes :=
  if isNegative then [0x2d]
  else if layout.has '+' then [0x2b]
  else if layout.has ' ' then [0x20]
  else []

/-- A number in a conversion of whole numbers, or nothing if there is no such conversion. -/
def whole? (layout : Layout) (conversion : Char) (n : Int) : Option Bytes :=
  let word := (n % Int.ofNat UInt64.size).toNat
  let digits (base : Nat) : Bytes :=
    if word = 0 && layout.precision = some 0 then []
    else ascii (String.ofList (Nat.toDigits base word))
  let mark (text : String) : Bytes := if layout.has '#' && word ≠ 0 then ascii text else []
  match conversion with
  | 'd' | 'i' => some (layout.number (layout.sign (n < 0)) (decimal n.natAbs))
  | 'u' => some (layout.number [] (digits 10))
  | 'o' =>
    let shown := digits 8
    let marked := layout.has '#' && shown.head? ≠ some 0x30
    some (layout.number [] (if marked then 0x30 :: shown else shown))
  | 'x' => some (layout.number (mark "0x") (digits 16))
  | 'X' => some (layout.number (mark "0X") (ascii (Text.lossy (digits 16)).toUpper))
  | _ => none

end Layout

/-- The number that an argument stands for, complained about if it is none: the code of a
character behind a quotation mark, or else digits. -/
def numberOf (argument : Bytes) : Eval (Int × Bool) := do
  match argument with
  | [] => return (0, true)
  | 0x22 :: rest | 0x27 :: rest => return ((rest.headD 0).toNat, true)
  | argument =>
    let body := argument.dropWhile Arithmetic.isGap
    let isNegative := body.head? = some 0x2d
    let digits := if isNegative || body.head? = some 0x2b then body.tail else body
    match Arithmetic.number? digits with
    | none =>
      report (argument ++ ascii ": expected numeric value")
      return (0, false)
    | some (n, left) =>
      if left ≠ [] then report (argument ++ ascii ": not completely converted")
      return (if isNegative then -(n : Int) else n, left.isEmpty)

/-- The number at the head of a format, or that of the next argument behind a star; what is left
of both. -/
def measure (format : Bytes) (args : List Bytes) : Eval (Option Nat × Bytes × List Bytes) := do
  match format with
  | 0x2a :: rest => do
    let (n, _) ← numberOf (args.headD [])
    return (some n.toNat, rest, args.tail)
  | format =>
    let digits := format.takeWhile fun b => 0x30 ≤ b && b ≤ 0x39
    return (number? digits, format.drop digits.length, args)

/-- Goes over a format once: the arguments that are left, whether all went well and whether an
escape ends all output.  The bound is the length of the format. -/
def formatOnce : (bound : Nat) → Bytes → List Bytes → Eval (List Bytes × Bool × Bool)
  | 0, _, args => pure (args, true, false)
  | _ + 1, [], args => pure (args, true, false)
  | bound + 1, 0x5c :: letter :: rest, args => do
    let (octets, left) : Bytes × Bytes :=
      match outputEscape? letter with
      | some octet => ([octet], rest)
      | none =>
        if isOctal letter then
          let (octet, left) := octal (letter :: rest)
          ([octet], left)
        else ([0x5c, letter], rest)
    emit octets
    formatOnce bound left args
  | bound + 1, 0x25 :: 0x25 :: rest, args => do
    emit [0x25]
    formatOnce bound rest args
  | bound + 1, 0x25 :: rest, args => do
    let flags := rest.takeWhile fun b => (ascii "-+ #0").contains b
    let (width, left, args) ← measure (rest.drop flags.length) args
    let (precision, left, args) ← match left with
      | 0x2e :: left => do
        let (precision, left, args) ← measure left args
        pure (some (precision.getD 0), left, args)
      | left => pure (none, left, args)
    let layout : Layout := ⟨flags, width.getD 0, precision⟩
    match left with
    | [] => fail (0x25 :: rest ++ ascii ": invalid directive")
    | conversion :: left => do
      let argument := args.headD []
      let (good, stop) ← match Char.ofNat conversion.toNat with
        | 's' => do
          emit (layout.text argument)
          pure (true, false)
        | 'c' => do
          emit (layout.text [argument.headD 0])
          pure (true, false)
        | 'b' => do
          let (text, stop) := unescape argument.length argument
          emit (layout.text text)
          pure (true, stop)
        | letter =>
          if (layout.whole? letter 0).isNone then
            let length := rest.length - left.length
            fail (0x25 :: rest.take length ++ ascii ": invalid directive")
          else do
            let (n, good) ← numberOf argument
            emit ((layout.whole? letter n).getD [])
            pure (good, false)
      if stop then return (args.tail, good, true)
      else do
        let (args, rightly, stop) ← formatOnce bound left args.tail
        return (args, good && rightly, stop)
  | bound + 1, octet :: rest, args => do
    emit [octet]
    formatOnce bound rest args

/-- Writes arguments by a format, and tells whether all went well.  The bound is one more than
the number of arguments. -/
def formatAll : (bound : Nat) → Bytes → List Bytes → Eval Bool
  | 0, _, _ => pure true
  | bound + 1, format, args => do
    let (left, good, stop) ← formatOnce format.length format args
    if stop || left = [] || left.length = args.length then return good
    else return good && (← formatAll bound format left)

end EngineFuzz.Shell
