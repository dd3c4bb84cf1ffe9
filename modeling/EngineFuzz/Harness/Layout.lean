import EngineFuzz.Text.Lines
import EngineFuzz.Uuid
/-!
# The retry harness

A harness runs a program again and again: the program's lines stand inside an endless loop that
catches and prints whatever the program throws.  Two markers, drawn anew for every harness,
identify the loop and the fault handler, and their lines are reported so that the engine's
output can be mapped back.

A harness is written line by line.  The writer counts the lines apart from the text that they
make, and the positions that are reported are taken from that count.

* `LineWriter.line` — one line is added to the text and to the count;
* `HarnessLayout.write` — the lines of a harness in their order;
* `HarnessLayout.render` — the text that comes of it, and its positions.
-/

namespace EngineFuzz

open Randomness

/-- The two markers of a harness. -/
structure HarnessIds where
  loop : Uuid
  fault : Uuid
deriving DecidableEq, Repr

/-- Draws the loop marker and then the fault marker. -/
def HarnessIds.draw : Draw HarnessIds := do
  let loop ← Uuid.draw
  let fault ← Uuid.draw
  return ⟨loop, fault⟩

/-- The 1-based lines of a harness that its user must know. -/
structure HarnessPositions where
  /-- The line that opens the loop. -/
  loopLine : Nat
  /-- The line of the fault handler. -/
  faultLine : Nat
  /-- How many lines stand before the first line of the program. -/
  lineOffset : Nat
deriving DecidableEq, Repr

/-- A harness as it is written to a file. -/
structure RenderedHarness where
  text : String
  positions : HarnessPositions
deriving DecidableEq, Repr

/-- A text that is written line by line, and how many lines it has. -/
structure LineWriter where
  text : String
  count : Nat
deriving DecidableEq, Repr

namespace LineWriter

/-- Nothing is written yet. -/
def empty : LineWriter := ⟨"", 0⟩

/-- Writes one line and gives its 1-based number. -/
def line (content : List Char) : StateM LineWriter Nat := fun out =>
  (out.count + 1, ⟨out.text ++ String.ofList content ++ "\n", out.count + 1⟩)

/-- Writes lines in their order. -/
def lines : List (List Char) → StateM LineWriter Unit
  | [] => pure ()
  | content :: contents => do
    let _ ← line content
    lines contents

/-- How many lines are written so far. -/
def written : StateM LineWriter Nat := fun out => (out.count, out)

end LineWriter

/-- What a harness is made of. -/
structure HarnessLayout where
  /-- The directive that has to stand at the very top. -/
  pragma : Option String
  ids : HarnessIds
  source : String
deriving DecidableEq, Repr

namespace HarnessLayout

/-- The two spellings of the strictness directive, double quotes first. -/
def strictPragmas : List String := ["\"use strict\";", "'use strict';"]

/-- The directive that a source begins with. -/
def pragmaOf (source : String) : Option String :=
  strictPragmas.find? fun pragma => pragma.toList.isPrefixOf source.toList

/-- The harness of a source. -/
def ofSource (source : String) (ids : HarnessIds) : HarnessLayout := ⟨pragmaOf source, ids, source⟩

/-- The name of the variable that holds what was caught. -/
def faultVariable (ids : HarnessIds) : List Char := 'e' :: 'x' :: '_' :: ids.fault.simpleChars

/-- The line that opens the loop. -/
def loopOpening (ids : HarnessIds) : List Char :=
  r"while (true) { //".toList ++ ids.loop.hyphenatedChars

/-- The line of the fault handler. -/
def faultOpening (ids : HarnessIds) : List Char :=
  r"} catch (".toList ++ faultVariable ids ++ r") { //".toList ++ ids.fault.hyphenatedChars

/-- The line that prints what was caught. -/
def faultReport (ids : HarnessIds) : List Char :=
  "print(".toList ++ faultVariable ids ++ ");".toList

/-- Writes the harness.  The positions are the numbers that the writer gives. -/
def write (layout : HarnessLayout) : StateM LineWriter HarnessPositions := do
  LineWriter.lines (layout.pragma.toList.map String.toList)
  let loopLine ← LineWriter.line (loopOpening layout.ids)
  let _ ← LineWriter.line r"try {".toList
  let _ ← LineWriter.line []
  let lineOffset ← LineWriter.written
  LineWriter.lines (Text.scriptLines layout.source.toList)
  let faultLine ← LineWriter.line (faultOpening layout.ids)
  let _ ← LineWriter.line (faultReport layout.ids)
  let _ ← LineWriter.line r"}".toList
  let _ ← LineWriter.line r"}".toList
  return ⟨loopLine, faultLine, lineOffset⟩

/-- The harness as text, and where the loop, the fault handler and the program stand in it. -/
def render (layout : HarnessLayout) : RenderedHarness :=
  let (positions, out) := layout.write .empty
  ⟨out.text, positions⟩

end HarnessLayout

end EngineFuzz
