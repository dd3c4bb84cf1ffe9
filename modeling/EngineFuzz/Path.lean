import EngineFuzz.Text.Utf8
import EngineFuzz.Uuid
/-!
# Unix paths

A path is a string of octets.  A slash at its head makes it absolute; slashes separate segments,
and segments that are empty or a single dot mean nothing, except for a dot at the very head.
What is left are the *components* of the path.

* `Path.components` — the components from left to right;
* `Path.parent?` — the path without its last component, in its own spelling;
* `Path.fileName?`, `Path.stem?`, `Path.fileExtension?` — the last component and its two parts;
* `Path.join` — a path read from the directory that another one names;
* `Path.sibling` — the path of a harness beside its program.
-/

namespace EngineFuzz

open Text (Bytes)

/-- A path, as its octets. -/
structure Path where
  bytes : Bytes
deriving DecidableEq, Repr

/-- A part of a path that means something. -/
inductive Component where
  /-- The root directory, at the head of an absolute path. -/
  | root
  /-- The dot at the head of a relative path. -/
  | current
  /-- Two dots. -/
  | parent
  /-- A file name. -/
  | name (bytes : Bytes)
deriving DecidableEq, Repr

namespace Path

/-- The octet that separates segments. -/
def slash : UInt8 := 0x2f

/-- The octet of a dot. -/
def dot : UInt8 := 0x2e

/-- The path that a text spells. -/
def ofString (text : String) : Path := ⟨Text.bytesOf text⟩

/-- The path as text, with replacements where it is not valid UTF-8. -/
def display (path : Path) : String := Text.lossy path.bytes

/-- Whether the path begins at the root. -/
def isAbsolute (path : Path) : Bool := path.bytes.head? = some slash

/-- Divides octets at every slash; there is always one segment more than slashes. -/
def segmentsOf : Bytes → List Bytes
  | [] => [[]]
  | b :: rest =>
    match segmentsOf rest with
    | [] => [[b]]
    | first :: others => if b = slash then [] :: first :: others else (b :: first) :: others

/-- Puts slashes between segments. -/
def joinSegments (segments : List Bytes) : Bytes := [slash].intercalate segments

/-- Whether a segment means nothing. -/
def isIdle (segment : Bytes) : Bool := segment = [] || segment = [dot]

/-- The head of a path: the slash of an absolute path, or a leading dot that is a segment. -/
def lead (path : Path) : Option Component :=
  match path.bytes with
  | [] => none
  | b :: rest =>
    if b = slash then some .root
    else if b = dot && (rest.head?.all (· = slash)) then some .current
    else none

/-- The octets of the head. -/
def leadBytes (path : Path) : Bytes := if path.lead.isSome then path.bytes.take 1 else []

/-- The segments after the head. -/
def body (path : Path) : List Bytes := segmentsOf (path.bytes.drop path.leadBytes.length)

/-- The component that a segment stands for. -/
def componentOf (segment : Bytes) : Option Component :=
  if isIdle segment then none
  else if segment = [dot, dot] then some .parent
  else some (.name segment)

/-- The components from left to right. -/
def components (path : Path) : List Component :=
  path.lead.toList ++ path.body.filterMap componentOf

/-- Segments without the idle ones at the end. -/
def trimEnd (segments : List Bytes) : List Bytes := (segments.reverse.dropWhile isIdle).reverse

/-- The path without its last component and without idle segments before it, otherwise in the
spelling it had.  A root has no parent, and neither has an empty path. -/
def parent? (path : Path) : Option Path :=
  match trimEnd path.body with
  | [] => if path.lead = some .current then some ⟨[]⟩ else none
  | segments@(_ :: _) => some ⟨path.leadBytes ++ joinSegments (trimEnd segments.dropLast)⟩

/-- The last component, if it is a name. -/
def fileName? (path : Path) : Option Bytes :=
  match path.components.getLast? with
  | some (.name bytes) => some bytes
  | _ => none

/-- Divides a file name at its last dot.  A dot at the head divides nothing. -/
def divideName (name : Bytes) : Bytes × Option Bytes :=
  let after := (name.reverse.takeWhile (· ≠ dot)).reverse
  if after.length + 1 < name.length then (name.take (name.length - after.length - 1), some after)
  else (name, none)

/-- The file name before its last dot. -/
def stem? (path : Path) : Option Bytes := path.fileName?.map fun name => (divideName name).1

/-- The file name after its last dot. -/
def fileExtension? (path : Path) : Option Bytes :=
  path.fileName?.bind fun name => (divideName name).2

/-- The path read from a directory.  An absolute path does not depend on the directory. -/
def join (directory path : Path) : Path :=
  if path.isAbsolute then path
  else if directory.bytes.getLast?.all (· = slash) then ⟨directory.bytes ++ path.bytes⟩
  else ⟨directory.bytes ++ slash :: path.bytes⟩

/-- The name of a harness: the stem of the program, an underscore and the identifier, and the
extension that the program has.  Stem and extension are written as text. -/
def siblingName (path : Path) (suffix : Uuid) : Bytes :=
  let stem := Text.bytesOf (Text.lossy (path.stem?.getD []))
  let extension := match path.fileExtension? with
    | some bytes => dot :: Text.bytesOf (Text.lossy bytes)
    | none => []
  stem ++ 0x5f :: Text.bytesOf suffix.hyphenated ++ extension

/-- The path of a harness, in the directory of its program. -/
def sibling (path : Path) (suffix : Uuid) : Path :=
  match path.parent? with
  | some directory => directory.join ⟨path.siblingName suffix⟩
  | none => ⟨path.siblingName suffix⟩

end Path

end EngineFuzz
