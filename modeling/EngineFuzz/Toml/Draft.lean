import EngineFuzz.Toml.Node
/-!
# Tables under construction

The statements of a document add to its tables one at a time, and a table may be added to only
in the way in which it came about: a table written by a header is not reopened, a table that
dotted keys made is added to by dotted keys, and an array of tables grows by headers in double
brackets.  A draft table remembers how it came about; a finished value is closed.

* `assign` — a key is given a value, through a dotted path;
* `within` — a header's path is followed, and the tables it passes through are made;
* `Draft.toNode` — the table once all is said.
-/

namespace EngineFuzz.Toml

/-- How a table came about. -/
inductive Origin where
  /-- It was written by a header of its own, or it is the document. -/
  | header
  /-- A header's path passes through it. -/
  | passed
  /-- A dotted key passes through it. -/
  | dotted
deriving DecidableEq, Repr

/-- A value that may still be added to. -/
inductive Draft where
  /-- A finished value. -/
  | closed (node : Node)
  /-- A table. -/
  | table (origin : Origin) (span : Option Span) (entries : List (Key × Draft))
  /-- An array of tables; each has the place of its header. -/
  | tables (items : List (Span × List (Key × Draft)))

/-- The entries of a draft table. -/
abbrev Entries := List (Key × Draft)

namespace Draft

mutual

/-- The value that a draft stands for. -/
def toNode : Draft → Node
  | .closed node => node
  | .table _ span entries => .table span (toNodes entries)
  | .tables items =>
    let start := (items.head?.map (·.1.start)).getD 0
    let stop := (items.getLast?.map (·.1.stop)).getD 0
    .array ⟨start, stop⟩ (toTables items)

/-- The entries that draft entries stand for. -/
def toNodes : List (Key × Draft) → List (Key × Node)
  | [] => []
  | (key, draft) :: rest => (key, toNode draft) :: toNodes rest

/-- The tables that the items of an array of tables stand for. -/
def toTables : List (Span × List (Key × Draft)) → List Node
  | [] => []
  | (span, entries) :: rest => .table (some span) (toNodes entries) :: toTables rest

end

end Draft

namespace Entries

/-- The draft under a key. -/
def get? (entries : Entries) (key : Key) : Option Draft :=
  (entries.find? (·.1.text = key.text)).map (·.2)

/-- Gives a key that is there another draft. -/
def replace (entries : Entries) (key : Key) (draft : Draft) : Entries :=
  entries.map fun entry => if entry.1.text = key.text then (entry.1, draft) else entry

/-- Takes a key out. -/
def without (entries : Entries) (key : Key) : Entries := entries.filter (·.1.text ≠ key.text)

/-- Gives a key a value, through a path of dotted keys.  `mayHold` says whether these entries
may hold a value that is reached in this way.  Nothing comes back if the key is there already or
the path leads through something that dotted keys may not add to. -/
def assign : (path : List Key) → (mayHold : Bool) → Key → Node → Entries → Option Entries
  | [], mayHold, key, node, entries =>
    if !mayHold || (entries.get? key).isSome then none else some (entries ++ [(key, .closed node)])
  | step :: path, _, key, node, entries =>
    match entries.get? step with
    | none => do
      let inner ← assign path true key node []
      return entries ++ [(step, .table .dotted none inner)]
    | some (.table origin span inner) =>
      if origin = .header then none
      else do
        let inner ← assign path (origin = .dotted) key node inner
        return entries.replace step (.table origin span inner)
    | some (.tables items) =>
      match items.getLast? with
      | none => none
      | some (span, inner) => do
        let inner ← assign path false key node inner
        return entries.replace step (.tables (items.dropLast ++ [(span, inner)]))
    | some (.closed _) => none

/-- Follows the path of a header and works on the entries it leads to. -/
def within {α : Type} (work : Entries → Option (α × Entries)) :
    (path : List Key) → Entries → Option (α × Entries)
  | [], entries => work entries
  | step :: path, entries =>
    match entries.get? step with
    | none => do
      let (found, inner) ← within work path []
      return (found, entries ++ [(step, .table .passed none inner)])
    | some (.table origin span inner) => do
      let (found, inner) ← within work path inner
      return (found, entries.replace step (.table origin span inner))
    | some (.tables items) =>
      match items.getLast? with
      | none => none
      | some (span, inner) => do
        let (found, inner) ← within work path inner
        return (found, entries.replace step (.tables (items.dropLast ++ [(span, inner)])))
    | some (.closed _) => none

/-- Prepares a key for the table of a header: the key is new, or a path passed through it, and then
what it holds already is handed over. -/
def openTable (key : Key) (entries : Entries) : Option (Entries × Entries) :=
  match entries.get? key with
  | none => some ([], entries)
  | some (.table .passed _ inner) => some (inner, entries.without key)
  | some _ => none

/-- Prepares a key for one more table of an array: the key is new, or holds such an array. -/
def openElement (key : Key) (entries : Entries) : Option (Entries × Entries) :=
  match entries.get? key with
  | none | some (.tables _) => some ([], entries)
  | some _ => none

/-- Puts the finished table of a header under its key. -/
def placeTable (key : Key) (span : Span) (table : Entries) (entries : Entries) :
    Option (Unit × Entries) :=
  some ((), entries ++ [(key, .table .header (some span) table)])

/-- Puts a finished table at the end of the array under its key. -/
def placeElement (key : Key) (span : Span) (table : Entries) (entries : Entries) :
    Option (Unit × Entries) :=
  match entries.get? key with
  | none => some ((), entries ++ [(key, .tables [(span, table)])])
  | some (.tables items) => some ((), entries.replace key (.tables (items ++ [(span, table)])))
  | some _ => none

end Entries

/-- A header: the keys that lead to its table, the key of the table, and whether it stands in double
brackets. -/
structure Header where
  path : List Key
  key : Key
  element : Bool
  span : Span
deriving DecidableEq, Repr

/-- A document half-way: the tables that are finished, and the one that statements now add to,
which is the document itself before the first header. -/
structure Assembly where
  finished : Entries
  finishedSpan : Span
  header : Option Header
  span : Span
  entries : Entries

namespace Assembly

/-- Nothing has been said. -/
def empty : Assembly := ⟨[], ⟨0, 0⟩, none, ⟨0, 0⟩, []⟩

/-- Puts the table that statements add to in its place. -/
def finish (a : Assembly) : Option (Span × Entries) :=
  match a.header with
  | none => some (a.span, a.entries)
  | some header => do
    let place := if header.element then Entries.placeElement else Entries.placeTable
    let (_, entries) ← a.finished.within (place header.key a.span a.entries) header.path
    return (a.finishedSpan, entries)

/-- Goes on under a header. -/
def enter (a : Assembly) (header : Header) : Option Assembly := do
  let (span, entries) ← a.finish
  let prepare := if header.element then Entries.openElement else Entries.openTable
  let (inner, entries) ← entries.within (prepare header.key) header.path
  return ⟨entries, span, some header, header.span, inner⟩

/-- Gives a key a value in the table that statements add to, whose place then reaches to the end of
the value. -/
def assign (a : Assembly) (path : List Key) (key : Key) (node : Node) : Option Assembly := do
  let entries ← a.entries.assign path true key node
  let stop := (node.span?.map Span.stop).getD a.span.stop
  return { a with entries, span := ⟨a.span.start, stop⟩ }

/-- The table of the document. -/
def toNode (a : Assembly) : Option Node := do
  let (span, entries) ← a.finish
  return .table (some span) (Draft.toNodes entries)

end Assembly

end EngineFuzz.Toml
