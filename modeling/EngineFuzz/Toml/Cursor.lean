import EngineFuzz.Toml.Node
/-!
# Reading characters

A reader takes characters from the head of what is left of a document and fails at the place
where it cannot go on.  Places are counted in octets of the UTF-8 form.
-/

namespace EngineFuzz.Toml

/-- The octets that characters take in UTF-8. -/
def octetCount (cs : List Char) : Nat := cs.foldl (fun n c => n + c.utf8Size) 0

/-- What is left of a document of `total` octets. -/
structure Cursor where
  total : Nat
  rest : List Char
deriving DecidableEq, Repr

namespace Cursor

/-- How many octets have been read. -/
def offset (cursor : Cursor) : Nat := cursor.total - octetCount cursor.rest

/-- The head of a document. -/
def ofText (text : List Char) : Cursor := ⟨octetCount text, text⟩

end Cursor

/-- A reader yields a value and what is left, or the place at which it fails. -/
abbrev Reader := StateT Cursor (Except Nat)

namespace Reader

/-- Fails at the current place. -/
def fail {α : Type} : Reader α := fun cursor => .error cursor.offset

/-- What is left. -/
def rest : Reader (List Char) := fun cursor => .ok (cursor.rest, cursor)

/-- Goes on from the given characters, which are the end of what was left. -/
def goOn (cs : List Char) : Reader Unit := fun cursor => .ok ((), { cursor with rest := cs })

/-- The current place. -/
def offset : Reader Nat := fun cursor => .ok (cursor.offset, cursor)

/-- Reads with a function that yields a value and what is left, or nothing. -/
def via {α : Type} (f : List Char → Option (α × List Char)) : Reader α := do
  match f (← rest) with
  | some (value, after) => do
    goOn after
    return value
  | none => fail

/-- Skips the given characters if they come next. -/
def skip? (expected : List Char) : Reader Bool := do
  match expected.isPrefixOf? (← rest) with
  | some after => do
    goOn after
    return true
  | none => return false

/-- Skips the given characters, which must come next. -/
def skip (expected : List Char) : Reader Unit := do
  unless ← skip? expected do fail

/-- The longest run of characters with a property. -/
def takeWhile (p : Char → Bool) : Reader (List Char) := do
  let cs ← rest
  goOn (cs.dropWhile p)
  return cs.takeWhile p

/-- The first reader, or the second from the same place if the first fails. -/
def either {α : Type} (first second : Reader α) : Reader α := fun cursor =>
  match first cursor with
  | .ok result => .ok result
  | .error _ => second cursor

/-- Reads a value together with the part of the document it was read from. -/
def spanned {α : Type} (reader : Reader α) : Reader (Span × α) := do
  let start ← offset
  let value ← reader
  return (⟨start, ← offset⟩, value)

end Reader

end EngineFuzz.Toml
