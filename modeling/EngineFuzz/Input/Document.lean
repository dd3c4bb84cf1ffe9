import EngineFuzz.Input
import EngineFuzz.Json
/-!
# Inputs as a document

The inputs of a program are handed to an engine's instrumentation as one object that lists them in
order, each with its line, its name, its type and a sample.
-/

namespace EngineFuzz

/-- The name of a kind of input. -/
def InputKind.text : InputKind → String
  | .boolean => "BOOLEAN"
  | .integer => "INTEGER"

/-- A value as a document. -/
def Sample.json : Sample → Json
  | .boolean value => .bool value
  | .integer value => .number value

namespace Input

/-- An input as an object. -/
def json (input : Input) : Json :=
  .object
    [("line_num", .number input.line),
      ("name", .text input.name),
      ("type", .text input.kind.text),
      ("sample", input.sample.json)]

/-- The object that lists inputs. -/
def document (inputs : List Input) : Json := .object [("variables", .array (inputs.map json))]

end Input

end EngineFuzz
