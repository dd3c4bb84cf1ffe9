import EngineFuzz.Harness.Record
import EngineFuzz.Session
/-!
# Harness files

A harness is written to a new file beside its program; the program is not touched.  The name of
the file is not drawn from the seeded source, so that running a session again does not hit upon
the harness that the first run left behind.

Whoever writes a harness has to decide about its end.  A `HarnessFile` is the handle of a
harness: when the handle is dropped the file is removed, and when the harness is kept the handle
is disarmed first.  `HarnessSlots` keeps handles under names of the caller's choice until each
of them is kept or dropped.
-/

namespace EngineFuzz

/-- Writes the harness of a program to a new file beside it. -/
def instrument (path : Path) : Action HarnessRecord := do
  let source ← Action.readText path
  let ids ← Action.draw HarnessIds.draw
  let rendered := (HarnessLayout.ofSource source ids).render
  let suffix ← Action.drawEntropy Uuid.draw
  let target := path.sibling suffix
  Action.change fun files => files.create target (Text.bytesOf rendered.text)
  return ⟨target, ids, rendered.positions⟩

/-- Removes the file of a harness.  If that fails the file is left where it is. -/
def discard (record : HarnessRecord) : Action Unit := fun session =>
  match session.files.remove record.path with
  | .ok files => (.ok (), { session with files })
  | .error _ => (.ok (), session)

/-- A harness that somebody answers for.  As long as it is armed, its file goes when the handle
goes. -/
structure HarnessFile where
  record : HarnessRecord
  armed : Bool
deriving DecidableEq, Repr

namespace HarnessFile

/-- Writes the harness of a program and answers for it. -/
def create (path : Path) : Action HarnessFile := do
  let record ← instrument path
  return ⟨record, true⟩

/-- Lets go of a harness: its file is removed, unless the handle was disarmed. -/
def drop (file : HarnessFile) : Action Unit := if file.armed then discard file.record else pure ()

/-- Disarms the handle of a harness before letting go of it, so that the file stays. -/
def keep (file : HarnessFile) : Action HarnessRecord := do
  let disarmed := { file with armed := false }
  disarmed.drop
  return disarmed.record

/-- Does something with a harness, and lets go of it whatever came of that. -/
def during {α : Type} (file : HarnessFile) (use : HarnessRecord → Action α) : Action α :=
  fun session =>
    let (result, session) := use file.record session
    let (_, session) := file.drop session
    (result, session)

end HarnessFile

/-- Starts an engine on a harness. -/
def runHarness (engines : Engines) (engine : Engine) (record : HarnessRecord)
    (optionFile : Option Path) : Action Outcome :=
  Action.launch engines engine (record.engineArguments optionFile)

/-- Handles of harnesses that nobody has decided about, each under the name of its slot. -/
abbrev HarnessSlots := List (String × HarnessFile)

namespace HarnessSlots

/-- The handle in a slot. -/
def get? (slots : HarnessSlots) (name : String) : Option HarnessFile :=
  (slots.find? (·.1 = name)).map (·.2)

/-- The slots with one of them emptied. -/
def clear (slots : HarnessSlots) (name : String) : HarnessSlots := slots.filter (·.1 ≠ name)

/-- The slots with a handle put into one of them. -/
def put (slots : HarnessSlots) (name : String) (file : HarnessFile) : HarnessSlots :=
  (name, file) :: slots.clear name

/-- Writes the harness of a program and puts its handle into a slot.  A handle that was there before
is dropped once the new harness is written. -/
def create (slots : HarnessSlots) (name : String) (path : Path) :
    Action (HarnessRecord × HarnessSlots) := do
  let file ← HarnessFile.create path
  match slots.get? name with
  | some old => old.drop
  | none => pure ()
  return (file.record, slots.put name file)

/-- Empties a slot and keeps the file of its harness. -/
def keep (slots : HarnessSlots) (name : String) : Action (Option HarnessRecord × HarnessSlots) := do
  match slots.get? name with
  | some file => do
    let record ← file.keep
    return (some record, slots.clear name)
  | none => return (none, slots)

/-- Empties a slot and drops the handle that was in it. -/
def drop (slots : HarnessSlots) (name : String) : Action (Option HarnessRecord × HarnessSlots) := do
  match slots.get? name with
  | some file => do
    file.drop
    return (some file.record, slots.clear name)
  | none => return (none, slots)

/-- Drops the handles in all slots. -/
def dropAll (slots : HarnessSlots) : Action Unit := slots.forM fun (_, file) => file.drop

end HarnessSlots

end EngineFuzz
