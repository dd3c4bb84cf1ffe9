import EngineFuzz.SystemFault
/-!
# Trees of files

A file tree holds files and directories at *locations*, which are lists of names from the root,
and it has a working directory from which relative paths are read.  A path is followed segment
by segment, so two dots lead to the parent only if what stands before them is a directory.

Every operation either succeeds with a new tree or fails and leaves the tree alone; only making
several directories at once can stop half-way, and says so in its type.

* `FileTree.get?`, `FileTree.insert`, `FileTree.erase` — the tree as a map from locations to
  entries;
* `FileTree.step`, `FileTree.resolve` — the location that a segment and a path lead to;
* `FileTree.target` — the place in which a path would make a new name;
* `read`, `write`, `create`, `makeDirectory`, `remove` — the operations.
-/

namespace EngineFuzz

open Text (Bytes)

/-- The names that lead from the root to a place. -/
abbrev Location := List Bytes

/-- What stands at a location. -/
inductive Entry where
  | file (content : Bytes)
  | directory
deriving DecidableEq, Repr

/-- Files and directories, and the directory from which relative paths are read.  Directories
that are `closed` admit no new names and lose none, whoever asks; no operation below opens or
closes one. -/
structure FileTree where
  entries : List (Location × Entry)
  base : Location
  closed : List Location
deriving DecidableEq, Repr

namespace FileTree

/-- The greatest number of octets in a name. -/
def maxName : Nat := 255

/-- The least number of octets that is too many for a path. -/
def pathLimit : Nat := 4096

/-- What stands at a location.  The root is always a directory. -/
def get? (tree : FileTree) (location : Location) : Option Entry :=
  match location with
  | [] => some .directory
  | _ => (tree.entries.find? (·.1 = location)).map (·.2)

/-- Puts an entry at a location. -/
def insert (tree : FileTree) (location : Location) (entry : Entry) : FileTree :=
  { tree with entries := (location, entry) :: tree.entries.filter (·.1 ≠ location) }

/-- Takes away what stands at a location. -/
def erase (tree : FileTree) (location : Location) : FileTree :=
  { tree with entries := tree.entries.filter (·.1 ≠ location) }

/-- A tree with an empty working directory and nothing beside it. -/
def ofBase (base : Location) : FileTree where
  entries := (List.range base.length).map fun n => (base.take (n + 1), .directory)
  base := base
  closed := []

/-- Accepts a path that the system can be asked about. -/
def checkPath (path : Path) : Except SystemFault Unit :=
  if path.bytes.contains 0 then .error .nulInPath
  else if path.bytes.isEmpty then .error .noEntry
  else if pathLimit ≤ path.bytes.length then .error .nameTooLong
  else .ok ()

/-- The location to which one segment leads from a location.  Only from a directory does a segment
lead anywhere, and what two dots lead to is a directory too. -/
def step (tree : FileTree) (here : Location) (segment : Bytes) : Except SystemFault Location :=
  if tree.get? here ≠ some .directory then .error .notDirectory
  else if Path.isIdle segment then .ok here
  else if segment = [Path.dot, Path.dot] then
    if tree.get? here.dropLast ≠ some .directory then .error .notDirectory else .ok here.dropLast
  else if maxName < segment.length then .error .nameTooLong
  else if (tree.get? (here ++ [segment])).isNone then .error .noEntry
  else .ok (here ++ [segment])

/-- The location to which segments lead from a location. -/
def walk (tree : FileTree) : (start : Location) → List Bytes → Except SystemFault Location :=
  List.foldlM tree.step

/-- The location from which a path is followed. -/
def start (tree : FileTree) (path : Path) : Location := if path.isAbsolute then [] else tree.base

/-- The location to which a path leads; something stands there. -/
def resolve (tree : FileTree) (path : Path) : Except SystemFault Location := do
  checkPath path
  tree.walk (tree.start path) (Path.segmentsOf path.bytes)

/-- The last part of a path, as an operation on names sees it. -/
inductive LastPart where
  /-- A name, and whether a slash follows it. -/
  | name (bytes : Bytes) (slashed : Bool)
  /-- Dots, or nothing but the root. -/
  | dots
deriving DecidableEq, Repr

/-- The directory in which a path would make or lose a name, and that name. -/
def target (tree : FileTree) (path : Path) : Except SystemFault (Location × LastPart) := do
  checkPath path
  let segments := Path.segmentsOf path.bytes
  let kept := (segments.reverse.dropWhile (· = [])).reverse
  match kept.getLast? with
  | none => return ([], .dots)
  | some last =>
    let directory ← tree.walk (tree.start path) kept.dropLast
    if tree.get? directory ≠ some .directory then throw .notDirectory
    if last = [Path.dot] || last = [Path.dot, Path.dot] then return (directory, .dots)
    return (directory, .name last (kept.length < segments.length))

/-- What stands under a name of a directory. -/
def child? (tree : FileTree) (directory : Location) (name : Bytes) :
    Except SystemFault (Option Entry) :=
  if maxName < name.length then .error .nameTooLong else .ok (tree.get? (directory ++ [name]))

/-- Whether a directory admits no new names and loses none. -/
def isClosed (tree : FileTree) (directory : Location) : Bool := tree.closed.contains directory

/-- Puts an entry under a new name, unless the directory is closed. -/
def addName (tree : FileTree) (directory : Location) (name : Bytes) (entry : Entry) :
    Except SystemFault FileTree :=
  if tree.isClosed directory then .error .permissionDenied
  else .ok (tree.insert (directory ++ [name]) entry)

/-- The content of a file. -/
def read (tree : FileTree) (path : Path) : Except SystemFault Bytes := do
  let location ← tree.resolve path
  match tree.get? location with
  | some (.file content) => return content
  | some .directory => throw .isDirectory
  | none => throw .noEntry

/-- The content of a file as text. -/
def readText (tree : FileTree) (path : Path) : Except SystemFault String := do
  let content ← tree.read path
  match Text.strict content with
  | some text => return text
  | none => throw .notText

/-- Gives a file a new content, and makes the file if there is none. -/
def write (tree : FileTree) (path : Path) (content : Bytes) : Except SystemFault FileTree := do
  let (directory, last) ← tree.target path
  match last with
  | .dots => throw .isDirectory
  | .name _ true => throw .isDirectory
  | .name name false =>
    match ← tree.child? directory name with
    | some .directory => throw .isDirectory
    | some (.file _) => return tree.insert (directory ++ [name]) (.file content)
    | none => tree.addName directory name (.file content)

/-- Makes a new file; what is there already is not touched. -/
def create (tree : FileTree) (path : Path) (content : Bytes) : Except SystemFault FileTree := do
  let (directory, last) ← tree.target path
  match last with
  | .dots => throw .exists
  | .name _ true => throw .isDirectory
  | .name name false =>
    match ← tree.child? directory name with
    | some _ => throw .exists
    | none => tree.addName directory name (.file content)

/-- Makes a new directory. -/
def makeDirectory (tree : FileTree) (path : Path) : Except SystemFault FileTree := do
  let (directory, last) ← tree.target path
  match last with
  | .dots => throw .exists
  | .name name _ =>
    match ← tree.child? directory name with
    | some _ => throw .exists
    | none => tree.addName directory name .directory

/-- Removes a file. -/
def remove (tree : FileTree) (path : Path) : Except SystemFault FileTree := do
  let (directory, last) ← tree.target path
  match last with
  | .dots => throw .isDirectory
  | .name name slashed =>
    match ← tree.child? directory name with
    | none => throw .noEntry
    | some .directory => throw .isDirectory
    | some (.file _) =>
      if slashed then throw .notDirectory
      else if tree.isClosed directory then throw .permissionDenied
      else return tree.erase (directory ++ [name])

/-- Whether something stands where a path leads. -/
def holds (tree : FileTree) (path : Path) : Bool := (tree.resolve path).isOk

/-- Whether a path leads to a file. -/
def isFile (tree : FileTree) (path : Path) : Bool :=
  match tree.resolve path with
  | .ok location => (tree.get? location matches some (.file _))
  | .error _ => false

/-- Whether a path leads to a directory. -/
def isDirectory (tree : FileTree) (path : Path) : Bool :=
  match tree.resolve path with
  | .ok location => tree.get? location = some .directory
  | .error _ => false

/-- Makes a directory and those above it that are missing.  `depth` bounds how many are made; a path
has fewer ancestors than octets.  The tree that comes back holds what was made before a failure. -/
def makeAncestors (tree : FileTree) (path : Path) :
    (depth : Nat) → FileTree × Except SystemFault Unit
  | 0 => (tree, .error (.described "failed to create whole tree"))
  | depth + 1 =>
    match tree.makeDirectory path with
    | .ok made => (made, .ok ())
    | .error .noEntry =>
      match path.parent? with
      | none => (tree, .error (.described "failed to create whole tree"))
      | some parent =>
        if parent.bytes.isEmpty then again tree
        else match tree.makeAncestors parent depth with
          | (above, .error fault) => (above, .error fault)
          | (above, .ok ()) => again above
    | .error fault => (tree, if tree.isDirectory path then .ok () else .error fault)
where
  /-- The last attempt, when the parent is there. -/
  again (tree : FileTree) : FileTree × Except SystemFault Unit :=
    match tree.makeDirectory path with
    | .ok made => (made, .ok ())
    | .error fault => (tree, if tree.isDirectory path then .ok () else .error fault)

/-- Makes a directory and those above it that are missing.  An empty path asks for nothing. -/
def makeDirectories (tree : FileTree) (path : Path) : FileTree × Except SystemFault Unit :=
  if path.bytes.isEmpty then (tree, .ok ()) else tree.makeAncestors path (path.bytes.length + 1)

/-- Makes the directories in which the last component of a path would stand. -/
def makeParent (tree : FileTree) (path : Path) : FileTree × Except SystemFault Unit :=
  match path.parent? with
  | some parent => tree.makeDirectories parent
  | none => (tree, .ok ())

/-- What stands below the working directory, with locations counted from there. -/
def listing (tree : FileTree) : List (Location × Entry) :=
  tree.entries.filterMap fun (location, entry) =>
    match tree.base.isPrefixOf? location with
    | some (first :: rest) => some (first :: rest, entry)
    | _ => none

/-- What was put at a location stands there, and nothing else changes. -/
theorem get?_insert (tree : FileTree) {location : Location} (h : location ≠ []) (entry : Entry)
    (other : Location) :
    (tree.insert location entry).get? other =
      if other = location then some entry else tree.get? other := by
  cases other with
  | nil => simp [get?, h.symm]
  | cons name names =>
    by_cases hl : name :: names = location
    · simp [get?, insert, hl]
    · have hne : ¬location = name :: names := fun h => hl h.symm
      simp only [get?, insert, hne, hl, decide_false, if_false, List.find?_cons_of_neg,
        Bool.false_eq_true, not_false_eq_true, List.find?_filter]
      congr 2
      funext e
      by_cases he : e.1 = name :: names
      · simp [he, hl]
      · simp [he]

/-- What is taken away is gone, and nothing else changes. -/
theorem get?_erase (tree : FileTree) {location : Location} (h : location ≠ []) (other : Location) :
    (tree.erase location).get? other = if other = location then none else tree.get? other := by
  cases other with
  | nil => simp [get?, h.symm]
  | cons name names =>
    by_cases hl : name :: names = location
    · simp [get?, erase, hl]
    · simp only [get?, erase, hl, if_false, List.find?_filter]
      congr 2
      funext e
      by_cases he : e.1 = name :: names
      · simp [he, hl]
      · simp [he]

end FileTree

end EngineFuzz
