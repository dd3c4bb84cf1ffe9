import EngineFuzz.Config
import EngineFuzz.Launch
/-!
# Errors

Everything that can keep an operation from its result, by cause.  `Error.message` is what a user
reads.  A cause that comes from outside and is known by its wording alone is `described`.
-/

namespace EngineFuzz

/-- Why a configuration cannot be used. -/
inductive ConfigCause where
  /-- The text of a file is no configuration. -/
  | rejected (file : Path) (text : String) (fault : ConfigFault)
  | described (text : String)
deriving DecidableEq, Repr

/-- The wording of a configuration's cause. -/
def ConfigCause.message : ConfigCause → String
  | .rejected file text fault => "failed to parse " ++ file.display ++ ": " ++ fault.report text
  | .described text => text

/-- Why a command cannot be carried out. -/
inductive CommandCause where
  /-- There is no program where the configuration says. -/
  | missingProgram (path : Path)
  /-- The literal counts are not two. -/
  | literalCounts
  | described (text : String)
deriving DecidableEq, Repr

/-- The wording of a command's cause. -/
def CommandCause.message : CommandCause → String
  | .missingProgram path => "file not found: " ++ path.display
  | .literalCounts => "--literals takes MIN and MAX"
  | .described text => text

/-- Why an engine did not do its work. -/
inductive EngineCause where
  /-- It could not be started. -/
  | notLaunched (command : String) (fault : SystemFault)
  /-- It ended without success. -/
  | failed (command : String) (status : ExitStatus)
  | described (text : String)
deriving DecidableEq, Repr

/-- The wording of an engine's cause. -/
def EngineCause.message : EngineCause → String
  | .notLaunched command fault => "failed to launch " ++ command ++ ": " ++ fault.message
  | .failed command status => command ++ " exited with " ++ status.text
  | .described text => text

/-- What keeps an operation from its result. -/
inductive Error where
  /-- A file operation failed. -/
  | io (fault : SystemFault)
  /-- A file that is to be read cannot be. -/
  | source (path : Path) (fault : SystemFault)
  /-- A range is out of order. -/
  | invalidRange (range : InvertedRange)
  | config (cause : ConfigCause)
  /-- No seed can be had. -/
  | entropy (text : String)
  | invalidCommand (cause : CommandCause)
  | engine (cause : EngineCause)
  /-- More is asked for than can be held. -/
  | overload (cause : Overload)
deriving DecidableEq, Repr

/-- The wording of an error. -/
def Error.message : Error → String
  | .io fault => "IO error: " ++ fault.message
  | .source path fault => "cannot read " ++ path.display ++ ": " ++ fault.message
  | .invalidRange range => Toml.invertedMessage range
  | .config cause => "Config error: " ++ cause.message
  | .entropy text => "OS randomness unavailable: " ++ text
  | .invalidCommand cause => "Invalid command: " ++ cause.message
  | .engine cause => "Engine error: " ++ cause.message
  | .overload cause => cause.message

end EngineFuzz
