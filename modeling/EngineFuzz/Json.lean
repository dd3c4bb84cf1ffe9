/-!
# JSON documents

What the library hands to other tools is written as JSON: truth values, natural numbers, texts,
arrays and objects.  An object keeps its fields in the order in which they were given.

A document has two spellings.  The *compact* one has no blanks at all; the *spacious* one puts every
item and every field on a line of its own, indented by two spaces for each level, and a blank after
every colon.  An empty array or object is a pair of brackets in both.
-/

namespace EngineFuzz

/-- A document. -/
inductive Json where
  | bool (value : Bool)
  | number (value : Nat)
  | text (value : String)
  | array (items : List Json)
  | object (fields : List (String × Json))

namespace Json

/-- How a document is spread over lines. -/
inductive Spacing where
  | compact
  | spacious
deriving DecidableEq, Repr

/-- What stands before an item at a depth: nothing, or a line feed and two spaces for each level. -/
def Spacing.lineBreak : Spacing → (depth : Nat) → List Char
  | .compact, _ => []
  | .spacious, depth => '\n' :: List.replicate (2 * depth) ' '

/-- What stands between the name of a field and its value. -/
def Spacing.colon : Spacing → List Char
  | .compact => [':']
  | .spacious => [':', ' ']

/-- The digits of a natural number. -/
def digits (n : Nat) : List Char := Nat.toDigits 10 n

/-- The hexadecimal digits of a control character, four of them. -/
def controlDigits (c : Char) : List Char :=
  '0' :: '0' :: [Nat.digitChar (c.toNat / 16), Nat.digitChar (c.toNat % 16)]

/-- How a character is written inside a text: quotation marks, backslashes and control
characters are escaped, and all else stands for itself. -/
def escaped (c : Char) : List Char :=
  if c = '"' then ['\\', '"']
  else if c = '\\' then ['\\', '\\']
  else if c = '\x08' then ['\\', 'b']
  else if c = '\x0c' then ['\\', 'f']
  else if c = '\n' then ['\\', 'n']
  else if c = '\r' then ['\\', 'r']
  else if c = '\t' then ['\\', 't']
  else if c.toNat < 0x20 then '\\' :: 'u' :: controlDigits c
  else [c]

/-- A text between quotation marks. -/
def quoted (text : String) : List Char := '"' :: text.toList.flatMap escaped ++ ['"']

mutual

/-- A document that stands at a depth. -/
def charsAt (spacing : Spacing) (depth : Nat) : Json → List Char
  | .bool true => ['t', 'r', 'u', 'e']
  | .bool false => ['f', 'a', 'l', 's', 'e']
  | .number n => digits n
  | .text value => quoted value
  | .array [] => ['[', ']']
  | .array (item :: items) =>
    '[' :: spacing.lineBreak (depth + 1) ++ charsAt spacing (depth + 1) item ++
      itemsAt spacing (depth + 1) items ++ spacing.lineBreak depth ++ [']']
  | .object [] => ['{', '}']
  | .object ((name, value) :: fields) =>
    '{' :: spacing.lineBreak (depth + 1) ++ quoted name ++ spacing.colon ++
      charsAt spacing (depth + 1) value ++ fieldsAt spacing (depth + 1) fields ++
        spacing.lineBreak depth ++ ['}']

/-- The items after the first, each behind a comma. -/
def itemsAt (spacing : Spacing) (depth : Nat) : List Json → List Char
  | [] => []
  | item :: items =>
    ',' :: spacing.lineBreak depth ++ charsAt spacing depth item ++ itemsAt spacing depth items

/-- The fields after the first, each behind a comma. -/
def fieldsAt (spacing : Spacing) (depth : Nat) : List (String × Json) → List Char
  | [] => []
  | (name, value) :: fields =>
    ',' :: spacing.lineBreak depth ++ quoted name ++ spacing.colon ++ charsAt spacing depth value ++
      fieldsAt spacing depth fields

end

/-- The document without blanks. -/
def compact (json : Json) : String := String.ofList (json.charsAt .compact 0)

/-- The document spread over lines. -/
def spacious (json : Json) : String := String.ofList (json.charsAt .spacious 0)

end Json

end EngineFuzz
