import EngineFuzz.Harness.File
import EngineFuzz.Probe
import EngineFuzz.Workspace
/-!
# Scripted sessions

A script is a list of steps that are carried out one after the other in one session, with
harnesses held in slots meanwhile.  Every step has an answer, and a step that fails does not
keep the next ones from being carried out; only an overload ends the whole script.  When a
script is over, the harnesses that are still in slots are removed.
-/

namespace EngineFuzz

open Randomness
open Text (Bytes)

/-- One step of a script. -/
inductive Step where
  /-- Writes a file, with the directories above it. -/
  | write (path : Path) (content : Bytes)
  /-- Makes a directory, with those above it. -/
  | makeDirectory (path : Path)
  | remove (path : Path)
  | read (path : Path)
  | list
  | reseed (random : Source)
  | sample (range : SizeRange)
  | program (path : Path) (shape : ProgramShape)
  | discover (path : Path) (sampling : Sampling)
  | instrument (path : Path)
  | create (path : Path) (slot : String)
  | record (slot : String)
  | keep (slot : String)
  | drop (slot : String)
  | run (slot : String) (engine : Engine) (optionFile : Option Path)
  | load (path : Path)
  | probe (engine : Engine) (iterations : Nat) (literals : SizeRange)

/-- What is below the working directory. -/
abbrev Listing := List (Location × Entry)

/-- The answer of a step. -/
inductive Answer where
  | done
  | text (text : String)
  | listing (listing : Listing)
  | value (n : Nat)
  | lines (lines : List Nat)
  | inputs (inputs : List Input)
  /-- A harness, and the text of its file. -/
  | harness (record : HarnessRecord) (text : String)
  | record (record : HarnessRecord)
  | status (status : ExitStatus)
  | loaded (loaded : LoadedConfig)
  | failures (failures : List ProbeFailure)
  /-- The slot is empty. -/
  | noSlot
  | failed (error : Error)

/-- A session and the harnesses that are held in slots. -/
structure Bench where
  session : Session
  slots : HarnessSlots

namespace Bench

/-- What comes of a step: an answer, or the overload that ends the script. -/
abbrev Result := Except Overload (Answer × Bench)

/-- The answer for an error, unless it ends the script. -/
def refuse (bench : Bench) : Error → Result
  | .overload cause => .error cause
  | error => .ok (.failed error, bench)

/-- Carries out an action, and makes an answer of its value or its error. -/
def answer {α : Type} (bench : Bench) (action : Action α) (make : α → Answer) : Result :=
  match action bench.session with
  | (.ok a, session) => .ok (make a, { bench with session })
  | (.error error, session) => refuse { bench with session } error

/-- Carries out an action that needs the harness in a slot. -/
def answerWith {α : Type} (bench : Bench) (slot : String) (action : HarnessFile → Action α)
    (make : α → Answer) : Result :=
  match bench.slots.get? slot with
  | some file => bench.answer (action file) make
  | none => .ok (.noSlot, bench)

/-- Empties a slot, and makes an answer of the harness that was in it. -/
def answerEmptied (bench : Bench) (action : Action (Option HarnessRecord × HarnessSlots))
    (make : HarnessRecord → Answer) : Result :=
  match action bench.session with
  | (.ok (some record, slots), session) => .ok (make record, ⟨session, slots⟩)
  | (.ok (none, slots), session) => .ok (.noSlot, ⟨session, slots⟩)
  | (.error error, session) => refuse { bench with session } error

/-- Writes a file, with the directories above it. -/
def writeFile (path : Path) (content : Bytes) : Action Unit := do
  Action.changeUntil fun files => files.makeParent path
  Action.change fun files => files.write path content

/-- The content of a file, as text that may have replacements. -/
def readFile (path : Path) : Action String := do
  match ← Action.ask fun files => files.read path with
  | .ok content => return Text.lossy content
  | .error fault => throw (.io fault)

/-- Writes a harness and reads it back. -/
def instrumentAndRead (path : Path) : Action (HarnessRecord × String) := do
  let record ← instrument path
  let text ← readFile record.path
  return (record, text)

/-- Carries out a step. -/
def perform (engines : Engines) (bench : Bench) : Step → Result
  | .write path content => bench.answer (writeFile path content) fun _ => .done
  | .makeDirectory path =>
    bench.answer (Action.changeUntil fun files => files.makeDirectories path) fun _ => .done
  | .remove path => bench.answer (Action.change fun files => files.remove path) fun _ => .done
  | .read path => bench.answer (readFile path) .text
  | .list => bench.answer (Action.ask FileTree.listing) .listing
  | .reseed random => bench.answer (Action.reseed random) fun _ => .done
  | .sample range => bench.answer (Action.draw range.sample) .value
  | .program path shape =>
    bench.answer (synthesizeFile path shape) fun program => .lines (program.blocks.map (·.line))
  | .discover path sampling => bench.answer (discoverInputs path sampling) .inputs
  | .instrument path =>
    bench.answer (instrumentAndRead path) fun (record, text) => .harness record text
  | .create path slot =>
    match bench.slots.create slot path bench.session with
    | (.ok (record, slots), session) => .ok (.record record, ⟨session, slots⟩)
    | (.error error, session) => refuse { bench with session } error
  | .record slot => bench.answerWith slot (fun file => pure file.record) .record
  | .keep slot => bench.answerEmptied (bench.slots.keep slot) .record
  | .drop slot => bench.answerEmptied (bench.slots.drop slot) fun _ => .done
  | .run slot engine optionFile =>
    bench.answerWith slot (fun file => runHarness engines engine file.record optionFile)
      fun outcome =>
      .status outcome.status
  | .load path => bench.answer (LoadedConfig.load path) .loaded
  | .probe engine iterations literals =>
    bench.answer (probe engines engine iterations literals) .failures

/-- Carries out steps in order. -/
def performAll (engines : Engines) (bench : Bench) :
    List Step → Except Overload (List Answer × Bench)
  | [] => .ok ([], bench)
  | step :: steps => do
    let (answer, bench) ← bench.perform engines step
    let (answers, bench) ← bench.performAll engines steps
    return (answer :: answers, bench)

/-- Removes the harnesses that are still in slots. -/
def close (bench : Bench) : Bench :=
  let (_, session) := bench.slots.dropAll bench.session
  ⟨session, []⟩

end Bench

end EngineFuzz
