import EngineFuzz.Error
/-!
# Sessions

A session is the state in which work is done: the files that are there, the random source that
every seeded choice draws from, a second source for what must not depend on the seed, the
engines that have been started, and what has been printed.

An action changes a session and ends in a value or an error.  An error undoes nothing: the
session keeps what happened before it.
-/

namespace EngineFuzz

open Randomness
open Text (Bytes)

/-- The state in which work is done. -/
structure Session where
  files : FileTree
  /-- What seeded choices are drawn from. -/
  random : Source
  /-- What names of new files and missing seeds are drawn from. -/
  entropy : Source
  /-- The engines started so far, the latest first. -/
  launches : List Launch
  stdout : Bytes
  stderr : Bytes
deriving DecidableEq, Repr

/-- A session that has only just begun. -/
def Session.begin (files : FileTree) (random entropy : Source) : Session :=
  ⟨files, random, entropy, [], [], []⟩

/-- A change of a session that ends in a value or an error. -/
abbrev Action := ExceptT Error (StateM Session)

namespace Action

/-- Draws from the random source. -/
def draw {α : Type} (d : Draw α) : Action α := fun session =>
  let (a, random) := d session.random
  (.ok a, { session with random })

/-- Draws what must not depend on the seed. -/
def drawEntropy {α : Type} (d : Draw α) : Action α := fun session =>
  let (a, entropy) := d session.entropy
  (.ok a, { session with entropy })

/-- Draws for a synthesis, which may be overloaded. -/
def synthesize {α : Type} (s : Synthesis α) : Action α := fun session =>
  match s.run session.random with
  | (.ok a, random) => (.ok a, { session with random })
  | (.error overload, random) => (.error (.overload overload), { session with random })

/-- Goes on from a seed. -/
def reseed (random : Source) : Action Unit := fun session => (.ok (), { session with random })

/-- What a question about the files is answered by. -/
def ask {α : Type} (question : FileTree → α) : Action α := fun session =>
  (.ok (question session.files), session)

/-- Reads a file as text. -/
def readText (path : Path) : Action String := fun session =>
  match session.files.readText path with
  | .ok text => (.ok text, session)
  | .error fault => (.error (.source path fault), session)

/-- Changes the files, or leaves them alone and fails. -/
def change (operation : FileTree → Except SystemFault FileTree) : Action Unit := fun session =>
  match operation session.files with
  | .ok files => (.ok (), { session with files })
  | .error fault => (.error (.io fault), session)

/-- Changes the files with an operation that may stop half-way. -/
def changeUntil (operation : FileTree → FileTree × Except SystemFault Unit) : Action Unit :=
  fun session =>
    match operation session.files with
    | (files, .ok ()) => (.ok (), { session with files })
    | (files, .error fault) => (.error (.io fault), { session with files })

/-- Starts an engine and waits for its end. -/
def launch (engines : Engines) (engine : Engine) (args : List String) : Action Outcome :=
  fun session =>
    let this : Launch := ⟨engine.command, engine.args ++ args, session.files⟩
    let launches := this :: session.launches
    match engines session.launches this with
    | .ok outcome => (.ok outcome, { session with launches, files := outcome.files })
    | .error fault =>
      (.error (.engine (.notLaunched engine.command fault)), { session with launches })

/-- Writes octets to the two outputs. -/
def write (stdout stderr : Bytes) : Action Unit := fun session =>
  (.ok (), { session with stdout := session.stdout ++ stdout, stderr := session.stderr ++ stderr })

/-- Writes a text and a line feed to the standard output. -/
def printLine (text : String) : Action Unit := write (Text.bytesOf (text ++ "\n")) []

section Sequences

variable {α β : Type} {first : Action α} {next : α → Action β} {session changed : Session}

/-- After a value the next action goes on from the session that is there then. -/
theorem bind_of_ok {a : α} (h : first session = (.ok a, changed)) :
    (first >>= next) session = next a changed := by
  change ExceptT.bindCont next (first session).1 (first session).2 = _
  rw [h]
  rfl

/-- After an error nothing else happens. -/
theorem bind_of_error {error : Error} (h : first session = (.error error, changed)) :
    (first >>= next) session = (.error error, changed) := by
  change ExceptT.bindCont next (first session).1 (first session).2 = _
  rw [h]
  rfl

end Sequences

section Outcomes

variable {session : Session} {path : Path} {text : String} {fault : SystemFault} {files : FileTree}
  {operation : FileTree → Except SystemFault FileTree}
  {steps : FileTree → FileTree × Except SystemFault Unit}
  {engines : Engines} {engine : Engine} {args : List String} {outcome : Outcome}

/-- A text that is there is read. -/
theorem readText_of_ok (h : session.files.readText path = .ok text) :
    readText path session = (.ok text, session) := by
  simp only [readText, h]

/-- A text that cannot be read is an error. -/
theorem readText_of_error (h : session.files.readText path = .error fault) :
    readText path session = (.error (.source path fault), session) := by
  simp only [readText, h]

/-- A change that succeeds changes the files alone. -/
theorem change_of_ok (h : operation session.files = .ok files) :
    change operation session = (.ok (), { session with files }) := by
  simp only [change, h]

/-- A change that fails changes nothing. -/
theorem change_of_error (h : operation session.files = .error fault) :
    change operation session = (.error (.io fault), session) := by
  simp only [change, h]

/-- A change in steps that succeeds changes the files alone. -/
theorem changeUntil_of_ok (h : steps session.files = (files, .ok ())) :
    changeUntil steps session = (.ok (), { session with files }) := by
  simp only [changeUntil, h]

/-- A change in steps that fails leaves the files as they were by then. -/
theorem changeUntil_of_error (h : steps session.files = (files, .error fault)) :
    changeUntil steps session = (.error (.io fault), { session with files }) := by
  simp only [changeUntil, h]

/-- An engine that ends is remembered, and its files are there. -/
theorem launch_of_ok
    (h : engines session.launches ⟨engine.command, engine.args ++ args, session.files⟩ =
      .ok outcome) :
    let this : Launch := ⟨engine.command, engine.args ++ args, session.files⟩
    launch engines engine args session = (.ok outcome,
      { session with launches := this :: session.launches, files := outcome.files }) := by
  simp only [launch, h]

/-- An engine that cannot be started is remembered, and nothing else has happened. -/
theorem launch_of_error
    (h : engines session.launches ⟨engine.command, engine.args ++ args, session.files⟩ =
      .error fault) :
    let this : Launch := ⟨engine.command, engine.args ++ args, session.files⟩
    launch engines engine args session = (.error (.engine (.notLaunched engine.command fault)),
      { session with launches := this :: session.launches }) := by
  simp only [launch, h]

end Outcomes

end Action

end EngineFuzz
