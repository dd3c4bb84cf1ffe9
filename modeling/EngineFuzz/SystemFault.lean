import EngineFuzz.Path
/-!
# Faults of the operating system

The ways in which reading, writing and launching fail, each with the wording that a message quotes.
-/

namespace EngineFuzz

/-- Why a file operation or a launch failed. -/
inductive SystemFault where
  /-- Nothing is there. -/
  | noEntry
  /-- Not allowed. -/
  | permissionDenied
  /-- Something is there already. -/
  | exists
  /-- A segment before the last is no directory, or a trailing slash follows a file. -/
  | notDirectory
  /-- A directory stands where a file is wanted. -/
  | isDirectory
  /-- A name or a path is longer than the system takes. -/
  | nameTooLong
  /-- A path holds a zero octet. -/
  | nulInPath
  /-- A command or one of its arguments holds a zero octet. -/
  | nulInArgument
  /-- A file that is read as text is not valid UTF-8. -/
  | notText
  /-- A path that is written as text is not valid UTF-8. -/
  | pathNotText
  /-- A program stands where one is to be written. -/
  | wouldOverwrite (path : Path)
  /-- A fault that is known by its wording alone. -/
  | described (text : String)
deriving DecidableEq, Repr

namespace SystemFault

/-- The wording of a fault. -/
def message : SystemFault → String
  | .noEntry => "No such file or directory (os error 2)"
  | .permissionDenied => "Permission denied (os error 13)"
  | .exists => "File exists (os error 17)"
  | .notDirectory => "Not a directory (os error 20)"
  | .isDirectory => "Is a directory (os error 21)"
  | .nameTooLong => "File name too long (os error 36)"
  | .nulInPath => "file name contained an unexpected NUL byte"
  | .nulInArgument => "nul byte found in provided data"
  | .notText => "stream did not contain valid UTF-8"
  | .pathNotText => "path contains invalid UTF-8 characters"
  | .wouldOverwrite path => "refusing to overwrite " ++ path.display ++ " (pass --force)"
  | .described text => text

end SystemFault

end EngineFuzz
