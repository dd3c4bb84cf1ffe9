import EngineFuzz.FileTree
/-!
# Launching engines

An engine is a program outside the library.  All that is known of it is what it does when it is
started with a command and arguments on the files that are there: it may fail to start, or it
ends in some way, has written to its two outputs, and leaves files behind.  What it does may
depend on all that was started before.

Nothing is kept from an engine: it may add, change and take away whatever files and directories it
likes, open and close directories, and move the working directory of the one who started it.

* `ExitStatus` — how a program ended, with its wording;
* `Launch`, `Outcome` — a start, and what came of it;
* `Engines` — the behaviour of everything that can be started.
-/

namespace EngineFuzz

open Text (Bytes)

/-- How a program ended. -/
inductive ExitStatus where
  /-- By itself, with a code. -/
  | exited (code : UInt8)
  /-- By a signal. -/
  | killed (signal : Nat)
deriving DecidableEq, Repr

namespace ExitStatus

/-- The names of the signals from 1 on. -/
def signalNames : List String :=
  ["SIGHUP", "SIGINT", "SIGQUIT", "SIGILL", "SIGTRAP", "SIGABRT", "SIGBUS", "SIGFPE", "SIGKILL",
    "SIGUSR1", "SIGSEGV", "SIGUSR2", "SIGPIPE", "SIGALRM", "SIGTERM", "SIGSTKFLT", "SIGCHLD",
    "SIGCONT", "SIGSTOP", "SIGTSTP", "SIGTTIN", "SIGTTOU", "SIGURG", "SIGXCPU", "SIGXFSZ",
    "SIGVTALRM", "SIGPROF", "SIGWINCH", "SIGIO", "SIGPWR", "SIGSYS"]

/-- The name of a signal, if it has one. -/
def signalName? : (signal : Nat) → Option String
  | 0 => none
  | signal + 1 => signalNames[signal]?

/-- Whether the program says that all went well. -/
def isSuccess (status : ExitStatus) : Bool := status = .exited 0

/-- The code of a program that ended by itself. -/
def code? : ExitStatus → Option UInt8
  | .exited code => some code
  | .killed _ => none

/-- The wording of a status. -/
def text : ExitStatus → String
  | .exited code => s!"exit status: {code}"
  | .killed signal =>
    match signalName? signal with
    | some name => s!"signal: {signal} ({name})"
    | none => s!"signal: {signal}"

end ExitStatus

/-- A start of an engine: what is started, and the files it finds. -/
structure Launch where
  command : String
  args : List String
  files : FileTree
deriving DecidableEq, Repr

/-- What came of a start: how the engine ended, what it wrote, and the tree of files that it
left. -/
structure Outcome where
  status : ExitStatus
  stdout : Bytes
  stderr : Bytes
  files : FileTree
deriving DecidableEq, Repr

/-- What happens at a start, given the starts before it, the latest first. -/
abbrev Engines := (earlier : List Launch) → Launch → Except SystemFault Outcome

end EngineFuzz
