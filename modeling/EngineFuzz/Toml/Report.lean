import EngineFuzz.Toml.Cursor
import EngineFuzz.Text.Utf8
/-!
# Reports on a document

A report names a place by line and column, shows the line, underlines the part it is about, and
ends in a message.  Lines and columns are counted from 1, columns in characters.
-/

namespace EngineFuzz.Toml

/-- A place in a text: its line and its column, counted from 0. -/
structure Place where
  line : Nat
  column : Nat
deriving DecidableEq, Repr

/-- The place that lies the given number of octets behind a place. -/
def Place.advance (place : Place) : (octets : Nat) → List Char → Place
  | 0, _ => place
  | _, [] => place
  | octets + 1, c :: rest =>
    let next : Place := if c = '\n' then ⟨place.line + 1, 0⟩ else ⟨place.line, place.column + 1⟩
    next.advance (octets + 1 - c.utf8Size) rest

/-- The place of an octet of a text. -/
def Place.ofOffset (text : String) (offset : Nat) : Place :=
  (⟨0, 0⟩ : Place).advance offset text.toList

/-- The lines of a text, divided at line feeds alone. -/
def plainLines (text : String) : List String := text.splitOn "\n"

/-- The report of a message about a part of a text.  The line that begins the part is shown, and at
least one character of it is underlined; the underline does not run past the end of the line. -/
def report (text : String) (span : Span) (message : String) : String :=
  let place := Place.ofOffset text span.start
  let number := toString (place.line + 1)
  let margin := String.ofList (List.replicate number.length ' ')
  let content := (plainLines text)[place.line]?.getD ""
  let length := min (span.stop - span.start) (content.utf8ByteSize - place.column)
  s!"TOML parse error at line {number}, column {place.column + 1}\n" ++
    margin ++ " |\n" ++
    number ++ " | " ++ content ++ "\n" ++
    margin ++ " | " ++ String.ofList (List.replicate place.column ' ') ++
      String.ofList (List.replicate (max 1 length) '^') ++ "\n" ++
    message ++ "\n"

end EngineFuzz.Toml
