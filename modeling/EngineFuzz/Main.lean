import EngineFuzz.Command.Line
import EngineFuzz.Engines.Standard
/-!
# The program

The program takes the files below its working directory as they are, does what its command line
asks for with the standard engines, and then makes the same changes to the files outside.  All
decisions are made by `CommandLine.execute`; what is here only moves octets in and out.
-/

namespace EngineFuzz.Main

open Randomness
open Text (Bytes)

/-- The octets of a file outside. -/
def octets (content : ByteArray) : Bytes := content.data.toList

/-- The name of a location below the working directory. -/
def nameOf (location : Location) : String := "/".intercalate (location.map Text.lossy)

/-- What is below a directory outside, down to a depth. -/
def snapshot : (depth : Nat) → (here : Location) → IO (List (Location × Entry))
  | 0, _ => return []
  | depth + 1, here => do
    let directory ← IO.FS.realPath (nameOf ([Path.dot] :: here))
    let mut found := []
    for entry in ← directory.readDir do
      let location := here ++ [Text.bytesOf entry.fileName]
      if ← entry.path.isDir then
        found := found ++ (location, .directory) :: (← snapshot depth location)
      else
        found := found ++ [(location, .file (octets (← IO.FS.readBinFile entry.path)))]
    return found

/-- The files below the working directory. -/
def load : IO FileTree := do
  let directory ← IO.currentDir
  let base := (Path.segmentsOf (Text.bytesOf directory.toString)).filter (· ≠ [])
  let found ← snapshot 64 []
  let tree := FileTree.ofBase base
  return { tree with
    entries := found.map (fun (location, entry) => (base ++ location, entry)) ++ tree.entries }

/-- Makes the changes that lead from one tree to another. -/
def store (before after : FileTree) : IO Unit := do
  for (location, entry) in before.listing do
    if after.get? (after.base ++ location) |>.isNone then
      match entry with
      | .file _ => IO.FS.removeFile (nameOf location)
      | .directory => pure ()
  for (location, entry) in after.listing do
    if before.get? (before.base ++ location) ≠ some entry then
      match entry with
      | .directory => IO.FS.createDirAll (nameOf location)
      | .file content => do
        if location.length > 1 then IO.FS.createDirAll (nameOf location.dropLast)
        IO.FS.writeBinFile (nameOf location) ⟨content.toArray⟩
  for (location, entry) in before.listing.mergeSort fun a b => b.1.length ≤ a.1.length do
    if entry = .directory && (after.get? (after.base ++ location)).isNone then
      IO.FS.removeDir (nameOf location)

/-- A source from the randomness of the system. -/
def entropy : IO Source := do
  let bytes ← IO.getRandomBytes 8
  return .ofSeed (bytes.data.foldl (fun word b => word * 256 + b.toUInt64) 0)

end EngineFuzz.Main

open EngineFuzz in
/-- Does what the command line asks for. -/
def main (words : List String) : IO UInt32 := do
  let files ← Main.load
  let source ← Main.entropy
  let session := Session.begin files source source
  let (code, session) := CommandLine.execute .standard (words.map Text.bytesOf) session
  Main.store files session.files
  let stdout ← IO.getStdout
  stdout.write ⟨session.stdout.toArray⟩
  let stderr ← IO.getStderr
  stderr.write ⟨session.stderr.toArray⟩
  return code.toUInt32
