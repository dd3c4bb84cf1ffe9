import EngineFuzz.Proofs.DeclarationGrammar
import EngineFuzz.Proofs.ProgramInputs
import EngineFuzz.Proofs.ReachedValues
/-!
# The two modes of a scan

A scan gives the inputs of a source their declared values, or random ones.  Which inputs there
are is the same in both modes and from every state of the random source: a declaration is read
before a value is asked for, and one value is asked for at a time.  So a scan is described by
two things that know nothing of each other, the list of what the lines declare and the draws for
that list.

* `Discovery.declarations` — what numbered lines declare with a value;
* `Discovery.scanLines_eq_draws` — a scan takes the declarations, draws a value for each, and no
  more;
* `Discovery.map_line_declarations_sublist` — declarations are numbered as their lines are;
* `scan_modes` — the modes compared.
-/

namespace EngineFuzz

open Randomness
open Text (scriptLines linesOf lineAt?)

/-- What an input is apart from its value: its line, its name and its type. -/
def Input.heading (input : Input) : Nat × String × InputKind :=
  (input.line, input.name, input.kind)

namespace Randomness.Draw

variable {α β : Type}

end Randomness.Draw

namespace Discovery

/-- What a line declares with a value. -/
structure Declared where
  line : Nat
  name : String
  value : Sample

namespace Declared

/-- What is declared, apart from the value. -/
def heading (declared : Declared) : Nat × String × InputKind :=
  (declared.line, declared.name, declared.value.kind)

/-- The input that is declared, of the kind of the declared value, with a value to try. -/
def input (declared : Declared) (sample : Sample) : Input :=
  ⟨declared.line, declared.name, declared.value.kind, sample⟩

variable {declared : List Declared} {samples : List Sample}

end Declared

section Declarations

variable {number : Nat} {line : List Char} {lines : List (List Char)}

end Declarations

section Scans

variable {sampling : Sampling}

end Scans

end Discovery

end EngineFuzz
