import EngineFuzz.Decimal.Binary64
/-!
# Values of a configuration document

A document denotes a table: keys in the order in which they were first written, each with a
node.  Nodes and keys remember the part of the text they were read from, which only error
messages look at.  Tables that the text never writes as such, because a header or a dotted key
passes through them, have no part of their own.
-/

namespace EngineFuzz.Toml

/-- A part of a text, in octets from its beginning; `stop` is not part of it. -/
structure Span where
  start : Nat
  stop : Nat
deriving DecidableEq, Repr

/-- A key, and where it was written. -/
structure Key where
  text : String
  span : Span
deriving DecidableEq, Repr

/-- A value.  Integers have 64 bits and a sign; a date or a time is kept as it was written. -/
inductive Node where
  | string (span : Span) (text : String)
  | integer (span : Span) (value : Int64)
  | float (span : Span) (value : Binary64)
  | boolean (span : Span) (value : Bool)
  | datetime (span : Span) (text : String)
  | array (span : Span) (items : List Node)
  | table (span : Option Span) (entries : List (Key × Node))
deriving Repr

/-- Where a value was written, if it has a place of its own. -/
def Node.span? : Node → Option Span
  | .string span _ | .integer span _ | .float span _ | .boolean span _ | .datetime span _
  | .array span _ => some span
  | .table span _ => span

end EngineFuzz.Toml
