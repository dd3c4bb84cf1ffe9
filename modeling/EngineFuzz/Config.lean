import EngineFuzz.Input
import EngineFuzz.Path
import EngineFuzz.Program
import EngineFuzz.Toml.Decode
import EngineFuzz.Toml.Document
import EngineFuzz.Toml.Report
/-!
# Configurations

A configuration names the program, and may set the seed of the session, the shape of generated
programs, how inputs get their values, and the engine with its arguments.  Everything but the
program has a default.

* `Config.ofNode` — the configuration that a document's table stands for;
* `Config.parse` — the configuration that a text stands for;
* `Config.programPathIn` — where the program is, seen from the configuration's directory.
-/

namespace EngineFuzz

/-- A command and the arguments that it is always given. -/
structure Engine where
  command : String
  args : List String
deriving DecidableEq, Repr

/-- A configuration. -/
structure Config where
  programPath : Path
  seed : Option UInt64
  shape : ProgramShape
  sampling : Sampling
  engine : Engine
deriving DecidableEq, Repr

/-- Why a text is no configuration. -/
inductive ConfigFault where
  /-- It stops being a document at an octet. -/
  | syntaxError (offset : Nat)
  /-- A value of the document does not fit. -/
  | valueFault (fault : Toml.Fault)
deriving DecidableEq, Repr

namespace Config

/-- Two to four blocks, each with one input, one or two constants and one or two literals. -/
def defaultShape : ProgramShape where
  blocks := ⟨2, 4, by decide⟩
  guardShape := ⟨.exactly 1, ⟨1, 2, by decide⟩, ⟨1, 2, by decide⟩⟩

/-- The engine that is run when none is named. -/
def defaultEngine : Engine := ⟨"js", []⟩

/-- The fields of a program shape. -/
def shapeFields : List (Toml.Field ProgramShape) :=
  [⟨"blocks", fun node s => return { s with blocks := ← Toml.decodeRange node }⟩,
    ⟨"input_vars", fun node s =>
      return { s with guardShape.inputVars := ← Toml.decodeRange node }⟩,
    ⟨"const_vars", fun node s =>
      return { s with guardShape.constVars := ← Toml.decodeRange node }⟩,
    ⟨"literals", fun node s =>
      return { s with guardShape.literals := ← Toml.decodeRange node }⟩]

/-- The fields that say how inputs get their values. -/
def samplingFields : List (Toml.Field Sampling) :=
  [⟨"randomize", fun node _ =>
    return if ← Toml.decodeBool node then .randomized else .fixed⟩]

/-- The fields of an engine. -/
def engineFields : List (Toml.Field Engine) :=
  [⟨"command", fun node e => return { e with command := ← Toml.decodeString "a string" node }⟩,
    ⟨"args", fun node e =>
      return { e with args := ← Toml.decodeList (Toml.decodeString "a string") node }⟩]

/-- A configuration whose program may not have been named yet. -/
structure Draft where
  programPath : Option Path
  seed : Option UInt64
  shape : ProgramShape
  sampling : Sampling
  engine : Engine

/-- A configuration in which nothing has been set. -/
def defaults : Draft := ⟨none, none, defaultShape, .randomized, defaultEngine⟩

/-- The fields of a configuration. -/
def fields : List (Toml.Field Draft) :=
  [⟨"program_path", fun node d =>
      return { d with programPath := some (.ofString (← Toml.decodeString "path string" node)) }⟩,
    ⟨"seed", fun node d => return { d with seed := some (← Toml.decodeUnsigned "u64" node) }⟩,
    ⟨"generator", fun node d => return { d with
      shape := ← Toml.decodeRecord "GeneratorConfig" shapeFields defaultShape node }⟩,
    ⟨"inputs", fun node d => return { d with
      sampling := ← Toml.decodeRecord "InputsConfig" samplingFields .randomized node }⟩,
    ⟨"engine", fun node d => return { d with
      engine := ← Toml.decodeRecord "EngineConfig" engineFields defaultEngine node }⟩]

/-- The configuration that a document's table stands for. -/
def ofNode (node : Toml.Node) : Toml.Decoded Config := do
  let draft ← Toml.decodeRecord "FuzzConfig" fields defaults node
  match draft.programPath with
  | some programPath => return { draft with programPath }
  | none => .error ⟨node.span?, .missingField "program_path"⟩

/-- The configuration that a text stands for. -/
def parse (text : String) : Except ConfigFault Config :=
  match Toml.Document.read text with
  | .error offset => .error (.syntaxError offset)
  | .ok node =>
    match ofNode node with
    | .error fault => .error (.valueFault fault)
    | .ok config => .ok config

/-- Where the program is.  A relative path is read from the given directory. -/
def programPathIn (config : Config) (directory : Path) : Path := directory.join config.programPath

/-- Where the program of a configuration file is: beside the file, unless its path is absolute. -/
def programPathBeside (config : Config) (file : Path) : Path :=
  config.programPathIn (file.parent?.getD ⟨[]⟩)

end Config

namespace ConfigFault

/-- What the text is told about. -/
def message : ConfigFault → String
  | .syntaxError _ => "invalid document"
  | .valueFault fault => fault.reason.message

/-- The report of a fault of a text. -/
def report (text : String) (fault : ConfigFault) : String :=
  match fault with
  | .syntaxError offset => Toml.report text ⟨offset, offset⟩ fault.message
  | .valueFault ⟨some span, _⟩ => Toml.report text span fault.message
  | .valueFault ⟨none, _⟩ => fault.message ++ "\n"

end ConfigFault

end EngineFuzz
