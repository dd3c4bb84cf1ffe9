import EngineFuzz.Shell.Run
/-!
# The engines that are always there

Three commands can be started wherever the library runs: a shell, a command that succeeds and a
command that fails.  A command with a slash in it names a file; files that the library writes
cannot be started, and neither can directories.
-/

namespace EngineFuzz.Engines

open Text (Bytes)

/-- What comes of a known command. -/
def known? (command : String) (launch : Launch) : Option Outcome :=
  if command = "sh" then some (Shell.execute launch.files launch.args)
  else if command = "true" then some ⟨.exited 0, [], [], launch.files⟩
  else if command = "false" then some ⟨.exited 1, [], [], launch.files⟩
  else none

/-- The directories in which known commands stand. -/
def directories : List String := ["/bin/", "/usr/bin/"]

/-- The command that a path names, if it is known. -/
def commandAt? (path : String) : Option String :=
  directories.findSome? fun directory =>
    (directory.toList.isPrefixOf? path.toList).map String.ofList

/-- Why a file cannot be started. -/
def refusal (files : FileTree) (path : Path) : SystemFault :=
  match files.resolve path with
  | .ok _ => .permissionDenied
  | .error fault => fault

/-- Why a command without a slash that is not known cannot be started.  It is looked for as a
name in directories, so dots are found there, but not as files. -/
def unknown (command : String) : SystemFault :=
  if command = "." || command = ".." then .permissionDenied
  else if FileTree.maxName < command.utf8ByteSize then .nameTooLong
  else .noEntry

/-- Whether a command or an argument holds a zero octet. -/
def holdsZero (launch : Launch) : Bool :=
  (launch.command :: launch.args).any fun word => word.toList.contains '\x00'

/-- What happens at a start, whatever was started before. -/
def standard : Engines := fun _ launch =>
  if holdsZero launch then .error .nulInArgument
  else if launch.command.toList.contains '/' then
    match (commandAt? launch.command).bind fun command => known? command launch with
    | some outcome => .ok outcome
    | none => .error (refusal launch.files (.ofString launch.command))
  else match known? launch.command launch with
    | some outcome => .ok outcome
    | none => .error (unknown launch.command)

end EngineFuzz.Engines
