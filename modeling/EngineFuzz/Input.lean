import EngineFuzz.Randomness.Uniform
import EngineFuzz.Text.Lines
import EngineFuzz.Text.Quoted
import EngineFuzz.Text.Word
/-!
# Input declarations

A program names its inputs in its own text: a line that declares a variable or a member with a
literal and ends in the comment `// input`.  The form of such a line is

    blank* (this. | (var | let | const) blank+) name blank* = blank* literal ; blank* // input

where a name and a literal are non-empty runs of word characters.  Word characters and white
space have nothing in common, so a line is of this form in one way at most and reading it needs
no second try.

* `Declaration.parse?` — reads a line;
* `Sample.ofLiteral?` — the literals that stand for a value: `true`, `false`, and decimal digits
  up to `2 ^ 63 - 1`;
* `scan` — the inputs of a source in order, with the declared values or with random ones.
-/

namespace EngineFuzz

open Randomness

/-- A declaration line: the name, and the literal it is given. -/
structure Declaration where
  name : List Char
  literal : List Char
deriving DecidableEq, Repr

namespace Declaration

/-- The word that makes a line an input declaration, at its very end. -/
def marker : List Char := ['/', '/', ' ', 'i', 'n', 'p', 'u', 't']

/-- The words that introduce a variable. -/
def keywords : List (List Char) :=
  [['v', 'a', 'r'], ['l', 'e', 't'], ['c', 'o', 'n', 's', 't']]

/-- What follows the blanks at the head, of which there must be one at least. -/
def afterBlanks? : List Char → Option (List Char)
  | c :: rest => if Text.isBlank c then some (rest.dropWhile Text.isBlank) else none
  | [] => none

/-- What follows `this.`, or a keyword and blanks. -/
def afterIntroduction? (cs : List Char) : Option (List Char) :=
  match ['t', 'h', 'i', 's', '.'].isPrefixOf? cs with
  | some rest => some rest
  | none => keywords.findSome? fun keyword => (keyword.isPrefixOf? cs).bind afterBlanks?

/-- A non-empty run of word characters at the head, and what follows it. -/
def word? (cs : List Char) : Option (List Char × List Char) :=
  match cs.takeWhile Text.isWord with
  | [] => none
  | word => some (word, cs.dropWhile Text.isWord)

/-- What follows the given character, if it stands at the head. -/
def after? (expected : Char) : List Char → Option (List Char)
  | c :: rest => if c = expected then some rest else none
  | [] => none

/-- Reads a line as a declaration. -/
def parse? (line : List Char) : Option Declaration := do
  let rest ← afterIntroduction? (line.dropWhile Text.isBlank)
  let (name, rest) ← word? rest
  let rest ← after? '=' (rest.dropWhile Text.isBlank)
  let (literal, rest) ← word? (rest.dropWhile Text.isBlank)
  let rest ← after? ';' rest
  if rest.dropWhile Text.isBlank = marker then some ⟨name, literal⟩ else none

end Declaration

/-- The kinds of input. -/
inductive InputKind where
  | boolean
  | integer
deriving DecidableEq, Repr

/-- A value for an input. -/
inductive Sample where
  | boolean (value : Bool)
  | integer (value : Nat)
deriving DecidableEq, Repr

namespace Sample

/-- The kind of a value. -/
def kind : Sample → InputKind
  | .boolean _ => .boolean
  | .integer _ => .integer

/-- Whether a character is an ASCII digit. -/
def isDigit (c : Char) : Bool := '0' ≤ c && c ≤ '9'

/-- The number that decimal digits stand for. -/
def numeral (digits : List Char) : Nat := digits.foldl (fun n c => 10 * n + (c.toNat - 48)) 0

/-- The value that a literal stands for, if it is of a kind that inputs have. -/
def ofLiteral? (literal : List Char) : Option Sample :=
  if literal = ['t', 'r', 'u', 'e'] then some (.boolean true)
  else if literal = ['f', 'a', 'l', 's', 'e'] then some (.boolean false)
  else if literal.all isDigit && numeral literal < 1 <<< 63 then some (.integer (numeral literal))
  else none

/-- The greatest integer that is drawn at random. -/
def maxRandom : Nat := 128

/-- A random value of a kind. -/
def draw : InputKind → Draw Sample
  | .boolean => .boolean <$> Draw.bool
  | .integer => .integer <$> Draw.below64 (maxRandom + 1)

end Sample

/-- Where the values of inputs come from: the random source, or the declarations themselves. -/
inductive Sampling where
  | randomized
  | fixed
deriving DecidableEq, Repr

/-- An input of a program: its 1-based line, its name, the kind that is declared, and a value. -/
structure Input where
  line : Nat
  name : String
  kind : InputKind
  sample : Sample
deriving DecidableEq, Repr

/-- A declaration whose literal stands for no value, and its 1-based line. -/
structure Skipped where
  line : Nat
  name : String
  literal : String
deriving DecidableEq, Repr

/-- The notice of a skipped declaration. -/
def Skipped.message (s : Skipped) : String :=
  s!"skipping input of unknown type line={s.line} variable=" ++ Text.quoted s.name ++
    " literal=" ++ Text.quoted s.literal

/-- What a scan finds: the inputs in order, and the declarations it skips. -/
structure Discovery where
  inputs : List Input
  skipped : List Skipped
deriving DecidableEq, Repr

namespace Discovery

/-- The value of an input with the given declared value. -/
def sampleOf : Sampling → Sample → Draw Sample
  | .fixed, declared => pure declared
  | .randomized, declared => Sample.draw declared.kind

/-- Scans lines that are numbered from `number` on. -/
def scanLines (sampling : Sampling) : (number : Nat) → List (List Char) → Draw Discovery
  | _, [] => pure ⟨[], []⟩
  | number, line :: lines =>
    match Declaration.parse? line with
    | none => scanLines sampling (number + 1) lines
    | some declaration =>
      match Sample.ofLiteral? declaration.literal with
      | none => do
        let rest ← scanLines sampling (number + 1) lines
        let here := ⟨number, String.ofList declaration.name, String.ofList declaration.literal⟩
        return { rest with skipped := here :: rest.skipped }
      | some declared => do
        let sample ← sampleOf sampling declared
        let rest ← scanLines sampling (number + 1) lines
        let here := ⟨number, String.ofList declaration.name, declared.kind, sample⟩
        return { rest with inputs := here :: rest.inputs }

end Discovery

/-- The inputs that a source declares. -/
def scan (sampling : Sampling) (source : String) : Draw Discovery :=
  Discovery.scanLines sampling 1 (Text.scriptLines source.toList)

end EngineFuzz
