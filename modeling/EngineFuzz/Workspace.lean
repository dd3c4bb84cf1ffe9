import EngineFuzz.Session
/-!
# Configurations and programs in files

A configuration file says where its program is.  The program can be read for its inputs, and it
can be written anew from the shape that the configuration gives; a program that is there already
is replaced only by force.
-/

namespace EngineFuzz

open Randomness

/-- A configuration and the file it was read from. -/
structure LoadedConfig where
  file : Path
  config : Config
deriving DecidableEq, Repr

namespace LoadedConfig

/-- Reads a configuration file. -/
def load (file : Path) : Action LoadedConfig := do
  let text ← Action.readText file
  match Config.parse text with
  | .ok config => return ⟨file, config⟩
  | .error fault => throw (.config (.rejected file text fault))

/-- Where the program is. -/
def programPath (loaded : LoadedConfig) : Path := loaded.config.programPathBeside loaded.file

/-- Writes a random program to where the configuration says, with the directories above it.  Unless
forced to, it writes nothing if something is there already. -/
def writeProgram (loaded : LoadedConfig) (force : Bool) : Action Path := do
  let path := loaded.programPath
  if (← Action.ask fun files => files.holds path) && !force then
    throw (.io (.wouldOverwrite path))
  let program ← Action.synthesize (Program.synthesize .standard loaded.config.shape)
  Action.changeUntil fun files => files.makeParent path
  Action.change fun files => files.write path (Text.bytesOf program.source)
  return path

/-- Where the program is that is to be run; it may be written anew. -/
def supplyProgram (loaded : LoadedConfig) (anew force : Bool) : Action Path :=
  if anew then loaded.writeProgram force else pure loaded.programPath

end LoadedConfig

/-- Writes a random program of a shape to a file, in a directory that is there. -/
def synthesizeFile (path : Path) (shape : ProgramShape) : Action Program := do
  let program ← Action.synthesize (Program.synthesize .standard shape)
  Action.change fun files => files.write path (Text.bytesOf program.source)
  return program

/-- The inputs that the program in a file declares. -/
def discoverInputs (path : Path) (sampling : Sampling) : Action (List Input) := do
  let source ← Action.readText path
  let discovery ← Action.draw (scan sampling source)
  return discovery.inputs

end EngineFuzz
