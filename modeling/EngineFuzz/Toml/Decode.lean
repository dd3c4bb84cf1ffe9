import EngineFuzz.SizeRange
import EngineFuzz.Text.Quoted
import EngineFuzz.Toml.Node
/-!
# From values to records

A record is read from a table by visiting its keys in the order of the document; the first fault
ends the reading, and a field that no key names keeps its default.  A record is also read from
an array, whose items are the fields in order.  A fault that arises without a place of its own
takes the place of the nearest value around it that has one.
-/

namespace EngineFuzz.Toml

/-- What a message says about a value that was found. -/
inductive Found where
  | boolean (value : Bool)
  | integer (value : Int64)
  | float (value : Binary64)
  | string (text : String)
  | sequence
  | map
deriving DecidableEq, Repr

/-- The wording for a value that was found. -/
def Found.text : Found → String
  | .boolean value => "boolean `" ++ toString value ++ "`"
  | .integer value => "integer `" ++ toString value.toInt ++ "`"
  | .float value => "floating point `" ++ value.text ++ "`"
  | .string text => "string " ++ Text.quoted text
  | .sequence => "sequence"
  | .map => "map"

/-- What is found in a value.  A date is a map. -/
def Node.found : Node → Found
  | .string _ text => .string text
  | .integer _ value => .integer value
  | .float _ value => .float value
  | .boolean _ value => .boolean value
  | .array _ _ => .sequence
  | .datetime _ _ | .table _ _ => .map

/-- Why a value does not fit. -/
inductive Reason where
  /-- It is of another type. -/
  | wrongType (found : Found) (expected : String)
  /-- It is an integer outside the range of sizes. -/
  | wrongValue (found : Found) (expected : String)
  /-- It has too few items. -/
  | wrongLength (length : Nat) (expected : String)
  /-- It has a key that names no field. -/
  | unknownField (name : String) (known : List String)
  /-- It lacks a field that has no default. -/
  | missingField (name : String)
  /-- It is a range whose ends are out of order. -/
  | inverted (range : InvertedRange)
deriving DecidableEq, Repr

/-- A name between backquotes. -/
def backquoted (name : String) : String := "`" ++ name ++ "`"

/-- The wording for the fields that a record has. -/
def fieldChoice : List String → String
  | [] => "there are no fields"
  | [name] => "expected " ++ backquoted name
  | [first, second] => "expected " ++ backquoted first ++ " or " ++ backquoted second
  | names => "expected one of " ++ ", ".intercalate (names.map backquoted)

/-- The wording of a range whose ends are out of order. -/
def invertedMessage (range : InvertedRange) : String :=
  s!"invalid {range.what} range: max {range.max.toNat} is below min {range.min.toNat}"

/-- The wording of a reason. -/
def Reason.message : Reason → String
  | .wrongType found expected => "invalid type: " ++ found.text ++ ", expected " ++ expected
  | .wrongValue found expected => "invalid value: " ++ found.text ++ ", expected " ++ expected
  | .wrongLength length expected => s!"invalid length {length}, expected " ++ expected
  | .unknownField name known => "unknown field " ++ backquoted name ++ ", " ++ fieldChoice known
  | .missingField name => "missing field " ++ backquoted name
  | .inverted range => invertedMessage range

/-- A reason and the place it is about, once that is known. -/
structure Fault where
  span : Option Span
  reason : Reason
deriving DecidableEq, Repr

/-- The reading of a value. -/
abbrev Decoded := Except Fault

/-- Gives a fault without a place this one. -/
def locate {α : Type} (span : Option Span) : Decoded α → Decoded α
  | .ok value => .ok value
  | .error fault => .error { fault with span := fault.span.or span }

/-- The fault of a value of another type. -/
def mismatch {α : Type} (node : Node) (expected : String) : Decoded α :=
  .error ⟨node.span?, .wrongType node.found expected⟩

/-- Reads a text. -/
def decodeString (expected : String) : Node → Decoded String
  | .string _ text => .ok text
  | node => mismatch node expected

/-- Reads a truth value. -/
def decodeBool : Node → Decoded Bool
  | .boolean _ value => .ok value
  | node => mismatch node "a boolean"

/-- Reads a number of 64 bits without a sign. -/
def decodeUnsigned (expected : String) : Node → Decoded UInt64
  | .integer span value =>
    if value < 0 then .error ⟨some span, .wrongValue (.integer value) expected⟩
    else .ok value.toUInt64
  | node => mismatch node expected

/-- Reads a list. -/
def decodeList {α : Type} (decode : Node → Decoded α) : Node → Decoded (List α)
  | .array span items => locate (some span) (items.mapM decode)
  | node => mismatch node "a sequence"

/-- The name under which ranges are expected. -/
def pairName : String := "a tuple of size 2"

/-- Reads a pair of sizes: the first two items of an array, which may have more. -/
def decodePair : Node → Decoded (UInt64 × UInt64)
  | .array span [] => .error ⟨some span, .wrongLength 0 pairName⟩
  | .array span [first] => locate (some span) do
    let _ ← decodeUnsigned "usize" first
    .error ⟨some span, .wrongLength 1 pairName⟩
  | .array span (first :: second :: _) => locate (some span) do
    let min ← decodeUnsigned "usize" first
    let max ← decodeUnsigned "usize" second
    return (min, max)
  | node => mismatch node pairName

/-- Reads a size range.  A pair that is out of order has no place of its own to report. -/
def decodeRange (node : Node) : Decoded SizeRange := do
  let (min, max) ← decodePair node
  match SizeRange.new min max with
  | .ok range => return range
  | .error range => .error ⟨none, .inverted range⟩

/-- A field of a record: its name, and how its value changes the record. -/
structure Field (ρ : Type) where
  name : String
  read : Node → ρ → Decoded ρ

/-- The key that a date shows in place of fields. -/
def dateKey : String := "$__toml_private_datetime"

/-- Reads the entries of a table into a record. -/
def decodeEntries {ρ : Type} (fields : List (Field ρ)) : List (Key × Node) → ρ → Decoded ρ
  | [], record => .ok record
  | (key, node) :: rest, record =>
    match fields.find? (·.name = key.text) with
    | none => .error ⟨some key.span, .unknownField key.text (fields.map Field.name)⟩
    | some field => do
      let record ← locate (node.span?.or (some key.span)) (field.read node record)
      decodeEntries fields rest record

/-- Reads the items of an array into a record, field by field.  Items past the last field mean
nothing. -/
def decodeItems {ρ : Type} : List (Field ρ) → List Node → ρ → Decoded ρ
  | field :: fields, node :: rest, record => do
    let record ← field.read node record
    decodeItems fields rest record
  | _, _, record => .ok record

/-- Reads a record that is first given its defaults. -/
def decodeRecord {ρ : Type} (name : String) (fields : List (Field ρ)) (defaults : ρ) :
    Node → Decoded ρ
  | .table span entries => locate span (decodeEntries fields entries defaults)
  | .array span items => locate (some span) (decodeItems fields items defaults)
  | .datetime span _ => .error ⟨some span, .unknownField dateKey (fields.map Field.name)⟩
  | node => mismatch node ("struct " ++ name)

end EngineFuzz.Toml
