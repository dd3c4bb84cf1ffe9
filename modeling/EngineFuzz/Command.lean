import EngineFuzz.Harness.File
import EngineFuzz.Input.Document
import EngineFuzz.Probe
import EngineFuzz.Workspace
/-!
# Commands

A command is one piece of work that a user asks for.  It begins by fixing the seed: the one
given with the command, else the one in the configuration, else a fresh one.

* `generate` — writes a random program to where a configuration says;
* `instrument` — writes the harness of a program and prints its record;
* `inputs` — prints the inputs of a program;
* `probe` — gives random statements to an engine and prints those that it rejects;
* `run` — runs the harness of a configuration's program in its engine, and removes the harness.
-/

namespace EngineFuzz

open Randomness

/-- What a user asks for. -/
inductive Command where
  | generate (config : Path) (force : Bool)
  | instrument (file : Path)
  | inputs (file : Path) (sampling : Sampling)
  | probe (iterations : Nat) (engine : String) (literals : List UInt64)
  | run (config : Path) (anew force : Bool)
deriving DecidableEq, Repr

namespace Command

/-- Fixes the random source by a seed, or by a fresh one. -/
def beginWith (seed : Option UInt64) : Action Unit := do
  match seed with
  | some seed => Action.reseed (.ofSeed seed)
  | none => do
    let seed ← Action.drawEntropy Draw.word64
    Action.reseed (.ofSeed seed)

/-- Writes a program and prints where it is. -/
def performGenerate (seed : Option UInt64) (config : Path) (force : Bool) : Action Unit := do
  let loaded ← LoadedConfig.load config
  beginWith (seed.or loaded.config.seed)
  let path ← loaded.writeProgram force
  Action.printLine path.display

/-- Writes a harness and prints its record. -/
def performInstrument (seed : Option UInt64) (file : Path) : Action Unit := do
  beginWith seed
  let record ← EngineFuzz.instrument file
  match record.json with
  | .ok json => Action.printLine json.spacious
  | .error fault => throw (.io fault)

/-- Prints the inputs of a program. -/
def performInputs (seed : Option UInt64) (file : Path) (sampling : Sampling) : Action Unit := do
  beginWith seed
  let inputs ← discoverInputs file sampling
  Action.printLine (Input.document inputs).spacious

/-- Probes an engine and prints what it rejects. -/
def performProbe (engines : Engines) (seed : Option UInt64) (iterations : Nat) (engine : String)
    (literals : List UInt64) : Action Unit := do
  match literals with
  | [min, max] =>
    match SizeRange.named "literal" min max with
    | .error range => throw (.invalidRange range)
    | .ok range => do
      beginWith seed
      let failures ← EngineFuzz.probe engines ⟨engine, []⟩ iterations range
      failures.forM fun failure => Action.write (Text.bytesOf failure.report) []
      Action.printLine s!"{failures.length} of {iterations} expressions failed"
  | _ => throw (.invalidCommand .literalCounts)

/-- Finds the configuration and the program, which may be written anew. -/
def findProgram (seed : Option UInt64) (config : Path) (anew force : Bool) :
    Action (LoadedConfig × Path) := do
  let loaded ← LoadedConfig.load config
  beginWith (seed.or loaded.config.seed)
  let program ← loaded.supplyProgram anew force
  if !(← Action.ask fun files => files.isFile program) then
    throw (.invalidCommand (.missingProgram program))
  return (loaded, program)

/-- Does what has to be done before an engine can be started: there has to be a configuration, a
program and a harness of the program. -/
def prepareRun (seed : Option UInt64) (config : Path) (anew force : Bool) :
    Action (LoadedConfig × HarnessFile) := do
  let (loaded, program) ← findProgram seed config anew force
  let file ← HarnessFile.create program
  return (loaded, file)

/-- Runs a harness in the engine of a configuration, whose outputs are passed on. -/
def runRecord (engines : Engines) (loaded : LoadedConfig) (record : HarnessRecord) :
    Action Unit := do
  let engine := loaded.config.engine
  let outcome ← runHarness engines engine record (some loaded.file)
  Action.write outcome.stdout outcome.stderr
  if !outcome.status.isSuccess then
    throw (.engine (.failed engine.command outcome.status))

/-- Runs a program in its engine, by a harness that is written for it and removed in the end. -/
def performRun (engines : Engines) (seed : Option UInt64) (config : Path) (anew force : Bool) :
    Action Unit := do
  let (loaded, file) ← prepareRun seed config anew force
  file.during (runRecord engines loaded)

/-- Carries out a command. -/
def perform (engines : Engines) (seed : Option UInt64) : Command → Action Unit
  | .generate config force => performGenerate seed config force
  | .instrument file => performInstrument seed file
  | .inputs file sampling => performInputs seed file sampling
  | .probe iterations engine literals => performProbe engines seed iterations engine literals
  | .run config anew force => performRun engines seed config anew force

/-- The code that an error ends the program with. -/
def exitCode : Error → UInt8
  | .overload _ => 101
  | _ => 1

/-- Carries out a command and gives the code that the program ends with.  An error is printed. -/
def execute (engines : Engines) (seed : Option UInt64) (command : Command) (session : Session) :
    UInt8 × Session :=
  match command.perform engines seed session with
  | (.ok (), session) => (0, session)
  | (.error error, session) =>
    (exitCode error,
      { session with stderr := session.stderr ++ Text.bytesOf (error.message ++ "\n") })

end Command

end EngineFuzz
