import EngineFuzz.Toml.Draft
import EngineFuzz.Toml.Lexical
/-!
# Configuration documents

A document is read statement by statement: headers, and keys with their values.  What is no
document in form, gives a key twice, or reopens a table in a way that is not allowed, has no
meaning at all.

A reader of documents has a limit, and gives up where values lie as deep inside each other, or
as many keys are joined by dots, as its limit says.  Any document is read with some limit, and
all greater ones; configurations are read with one of their own.

* `value` — a value and where it stands;
* `Document.readWithin` — the table that a text denotes, or the place at which the reader gives up;
* `Document.read` — what is read with the limit of configurations.
-/

namespace EngineFuzz.Toml

/-- Makes an inline table of its entries, which may not repeat a key. -/
def inlineTable (pairs : List (List Key × Key × Node)) : Option (List (Key × Node)) := do
  let entries ← pairs.foldlM
    (fun (entries : Entries) (path, key, node) => entries.assign path true key node) []
  return Draft.toNodes entries

mutual

/-- A value at a depth of nesting.  `bound` is more than twice the number of characters left. -/
def value (limit : Nat) : (bound depth : Nat) → Reader Node
  | 0, _ => Reader.fail
  | bound + 1, depth => do
    let head := (← Reader.rest).head?
    if head = some '"' || head = some '\'' then do
      let (span, text) ← Reader.spanned string
      return .string span text
    else if head = some '[' then do
      if limit ≤ depth + 1 then Reader.fail
      let (span, items) ← Reader.spanned do
        Reader.skip ['[']
        items limit bound (depth + 1)
      return .array span items
    else if head = some '{' then do
      if limit ≤ depth + 1 then Reader.fail
      let (span, entries) ← Reader.spanned do
        Reader.skip ['{']
        let pairs ← pairs limit bound (depth + 1) true
        match inlineTable pairs with
        | some entries => return entries
        | none => Reader.fail
      return .table (some span) entries
    else if head = some 't' then do
      let (span, _) ← Reader.spanned (Reader.skip ['t', 'r', 'u', 'e'])
      return .boolean span true
    else if head = some 'f' then do
      let (span, _) ← Reader.spanned (Reader.skip ['f', 'a', 'l', 's', 'e'])
      return .boolean span false
    else
      Reader.either
        (do
          let (span, text) ← Reader.spanned datetime
          return .datetime span text)
        (Reader.either
          (do
            let (span, number) ← Reader.spanned float
            return .float span number)
          (do
            let (span, number) ← Reader.spanned integer
            return .integer span number))

/-- The items of an array and its closing bracket; a comma may stand behind the last item. -/
def items (limit : Nat) : (bound depth : Nat) → Reader (List Node)
  | 0, _ => Reader.fail
  | bound + 1, depth => do
    commentedLines (bound + 1)
    if ← Reader.skip? [']'] then return []
    let item ← value limit bound depth
    commentedLines (bound + 1)
    if ← Reader.skip? [','] then
      return item :: (← items limit bound depth)
    Reader.skip [']']
    return [item]

/-- The entries of an inline table and its closing brace; no comma stands behind the last one,
so only the first place may be empty. -/
def pairs (limit : Nat) : (bound depth : Nat) → (mayBeEmpty : Bool) →
    Reader (List (List Key × Key × Node))
  | 0, _, _ => Reader.fail
  | bound + 1, depth, mayBeEmpty => do
    blanks
    if mayBeEmpty then
      if ← Reader.skip? ['}'] then return []
    let (path, key) ← keyPath limit
    Reader.skip ['=']
    blanks
    let node ← value limit bound depth
    blanks
    if ← Reader.skip? [','] then
      return (path, key, node) :: (← pairs limit bound depth false)
    Reader.skip ['}']
    return [(path, key, node)]

end

/-- A header in single or double brackets, and the rest of its line. -/
def header (limit : Nat) : Reader Header := do
  let (span, element, path, key) ← Reader.spanned do
    let element ← Reader.skip? ['[', '[']
    unless element do Reader.skip ['[']
    let (path, key) ← keyPath limit
    Reader.skip (if element then [']', ']'] else [']'])
    return (element, path, key)
  restOfLine
  return ⟨path, key, element, span⟩

/-- A key with its value, and the rest of their line. -/
def keyValue (limit : Nat) : Reader (List Key × Key × Node) := do
  let (path, key) ← keyPath limit
  Reader.skip ['=']
  blanks
  let cs ← Reader.rest
  let node ← value limit (2 * cs.length + 2) 0
  restOfLine
  return (path, key, node)

/-- Turns a refusal into a failure at the current place. -/
def orFail {α : Type} : Option α → Reader α
  | some a => return a
  | none => Reader.fail

/-- All statements that are left; `bound` is more than the number of characters left. -/
def statements (limit : Nat) : (bound : Nat) → Assembly → Reader Assembly
  | 0, _ => Reader.fail
  | bound + 1, assembly => do
    blanks
    let cs ← Reader.rest
    match cs with
    | [] => return assembly
    | '#' :: _ => do
      comment?
      lineEnd
      statements limit bound assembly
    | '\n' :: _ => do
      lineEnd
      statements limit bound assembly
    | '\r' :: _ => do
      lineEnd
      statements limit bound assembly
    | '[' :: _ => do
      let assembly ← orFail (assembly.enter (← header limit))
      statements limit bound assembly
    | _ => do
      let (path, key, node) ← keyValue limit
      let assembly ← orFail (assembly.assign path key node)
      statements limit bound assembly

/-- A whole document, behind a byte order mark if there is one. -/
def document (limit : Nat) : Reader Node := do
  let _ ← Reader.skip? ['\ufeff']
  let cs ← Reader.rest
  let assembly ← statements limit (cs.length + 1) .empty
  orFail assembly.toNode

/-- The table that a text denotes, or the place at which a reader with a limit gives up. -/
def Document.readWithin (limit : Nat) (text : String) : Except Nat Node :=
  (document limit (.ofText text.toList)).map (·.1)

/-- How deep values may lie inside each other, and keys of one path, in the document of a
configuration. -/
def depthLimit : Nat := 80

/-- The table that the text of a configuration denotes, or the place at which the reader gives
up. -/
def Document.read (text : String) : Except Nat Node := Document.readWithin depthLimit text

end EngineFuzz.Toml
