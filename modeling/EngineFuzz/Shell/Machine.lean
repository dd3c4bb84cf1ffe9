import EngineFuzz.FileTree
import EngineFuzz.Launch
import EngineFuzz.Shell.Pattern
import EngineFuzz.Shell.Phrase
/-!
# The state of a shell

A running shell has a file tree, variables, parameters, functions and settings.  What it reads
and writes goes through numbered *channels*, each of which leads to a *stream*; several channels
may lead to the same one, and then what is done on one of them shows on the others.

An evaluation changes the state and either goes on or halts in one of a few ways.  A halt undoes
nothing.
-/

namespace EngineFuzz.Shell

open Text (Bytes)

/-- What a channel leads to. -/
inductive Stream where
  /-- Swallows what is written and is always at its end. -/
  | void
  /-- Holds what has been written and not yet read. -/
  | pipe (content : Bytes)
  /-- Stands at a place in a file, or always at its end. -/
  | file (location : Location) (offset : Nat) (appends : Bool)
deriving DecidableEq, Repr

/-- A variable. -/
structure Variable where
  /-- A variable may be spoken of before it has a value. -/
  value : Option Bytes
  exported : Bool
  /-- It cannot be changed. -/
  fixed : Bool
deriving DecidableEq, Repr

/-- The state of a shell. -/
structure Machine where
  files : FileTree
  name : Bytes
  parameters : List Bytes
  bindings : List (Bytes × Variable)
  functions : List (Bytes × Phrase)
  /-- What is to be done at the end, which has number zero, or at a signal. -/
  traps : List (Nat × Bytes)
  /-- The letters of the settings that are on. -/
  settings : List Char
  status : UInt8
  /-- The status of the phrase whose output was put into a word last. -/
  substituted : UInt8
  /-- The statuses of the phrases that have been run in the background, the latest first. -/
  background : List UInt8
  /-- The status before the action of a trap that is being carried out. -/
  interrupted : Option UInt8
  line : Nat
  /-- The command of the shell that is being carried out. -/
  command : Option Bytes
  /-- How many loops are being carried out. -/
  loops : Nat
  /-- How many functions are being carried out. -/
  calls : Nat
  /-- The variables that functions have to give back, the innermost function first. -/
  saved : List (List (Bytes × Option Variable))
  streams : Array Stream
  channels : List (Nat × Nat)

/-- How an evaluation halts. -/
inductive Halt where
  /-- Leaves loops. -/
  | leave (levels : Nat)
  /-- Goes on with the next round of a loop. -/
  | again (levels : Nat)
  /-- Leaves a function. -/
  | back
  /-- Ends the shell. -/
  | ended
  /-- A command of the shell went wrong, which ends the shell unless the command is a common one. -/
  | failed
  /-- Ends the shell by a signal. -/
  | killed (signal : Nat)
deriving DecidableEq, Repr

/-- A change of a shell's state that may halt. -/
abbrev Eval := ExceptT Halt (StateM Machine)

/-- The octets of a text. -/
def ascii (text : String) : Bytes := Text.bytesOf text

/-- The octets of the digits of a number. -/
def decimal (n : Nat) : Bytes := ascii (toString n)

/-- The number that the shell has among processes. -/
def processId : Nat := 4711

/-- The number that digits stand for, if all octets are digits. -/
def number? (octets : Bytes) : Option Nat :=
  if octets ≠ [] && octets.all fun b => 0x30 ≤ b && b ≤ 0x39 then
    some (octets.foldl (fun n b => 10 * n + (b.toNat - 48)) 0)
  else none

/-- The number that digits stand for, perhaps behind a sign and between white space. -/
def integer? (octets : Bytes) : Option Int :=
  let isGap (b : UInt8) : Bool := b = 0x20 || (0x09 ≤ b && b ≤ 0x0d)
  let octets := ((octets.dropWhile isGap).reverse.dropWhile isGap).reverse
  match octets with
  | 0x2d :: digits => (number? digits).map fun n => -(n : Int)
  | 0x2b :: digits => (number? digits).map fun n => (n : Int)
  | _ => (number? octets).map fun n => (n : Int)

/-- Whether octets come before others, octet by octet. -/
def precedes : Bytes → Bytes → Bool
  | _, [] => false
  | [], _ :: _ => true
  | a :: as, b :: bs => a < b || (a = b && precedes as bs)

/-- Octet strings in order. -/
def inOrder (strings : List Bytes) : List Bytes := strings.mergeSort fun a b => !precedes b a

/-- The pieces between separators. -/
def splitAt (separator : UInt8) (octets : Bytes) : List Bytes :=
  octets.foldr (fun b pieces =>
    match pieces with
    | [] => [[b]]
    | first :: rest => if b = separator then [] :: first :: rest else (b :: first) :: rest) [[]]

/-- The lines of octets, with their line feeds. -/
def linesOf (octets : Bytes) : List Bytes :=
  octets.foldr (fun b lines =>
    match lines with
    | [] => [[b]]
    | first :: rest => if b = 0x0a then [b] :: first :: rest else (b :: first) :: rest) []

/-- A line without its line feed. -/
def withoutFeed (line : Bytes) : Bytes := if line.getLast? = some 0x0a then line.dropLast else line

namespace Machine

/-- The octets at a channel that have not been read. -/
def unread (machine : Machine) (channel : Nat) : Bytes :=
  match (machine.channels.lookup channel).bind fun id => machine.streams[id]? with
  | some (.pipe content) => content
  | some (.file location offset _) =>
    match machine.files.get? location with
    | some (.file content) => content.drop offset
    | _ => []
  | _ => []

/-- Goes past octets at a channel. -/
def advance (machine : Machine) (channel count : Nat) : Machine :=
  match machine.channels.lookup channel with
  | some id =>
    let streams := machine.streams.modify id fun stream =>
      match stream with
      | .pipe content => .pipe (content.drop count)
      | .file location offset appends => .file location (offset + count) appends
      | .void => .void
    { machine with streams }
  | none => machine

/-- Content in which octets have been written over others from an offset on. -/
def overwrite (content : Bytes) (offset : Nat) (octets : Bytes) : Bytes :=
  content.take offset ++ List.replicate (offset - content.length) 0 ++ octets ++
    content.drop (offset + octets.length)

/-- Writes octets to a channel.  What goes to a file that is gone is lost. -/
def writeTo (machine : Machine) (channel : Nat) (octets : Bytes) : Machine :=
  match machine.channels.lookup channel with
  | some id =>
    match machine.streams[id]? with
    | some (.pipe content) =>
      { machine with streams := machine.streams.setIfInBounds id (.pipe (content ++ octets)) }
    | some (.file location offset appends) =>
      match machine.files.get? location with
      | some (.file content) =>
        let offset := if appends then content.length else offset
        { machine with
          files := machine.files.insert location (.file (overwrite content offset octets))
          streams := machine.streams.setIfInBounds id
            (.file location (offset + octets.length) appends) }
      | _ => machine
    | _ => machine
  | none => machine

/-- Points a channel to a stream. -/
def point (machine : Machine) (channel id : Nat) : Machine :=
  { machine with channels := (channel, id) :: machine.channels.filter (·.1 ≠ channel) }

/-- Closes a channel. -/
def close (machine : Machine) (channel : Nat) : Machine :=
  { machine with channels := machine.channels.filter (·.1 ≠ channel) }

/-- Points a channel to a new stream. -/
def attach (machine : Machine) (channel : Nat) (stream : Stream) : Machine :=
  { machine with streams := machine.streams.push stream }.point channel machine.streams.size

/-- Whether a setting is on. -/
def hasSetting (machine : Machine) (letter : Char) : Bool := machine.settings.contains letter

/-- The value of a variable, if it has one. -/
def lookup? (machine : Machine) (name : Bytes) : Option Bytes :=
  (machine.bindings.lookup name).bind (·.value)

/-- The octets that divide the words that an expansion makes. -/
def separators (machine : Machine) : Bytes :=
  (machine.lookup? (ascii "IFS")).getD [0x20, 0x09, 0x0a]

/-- What stands between parameters that are put together. -/
def joint (machine : Machine) : Bytes := machine.separators.take 1

/-- The value of a parameter, if it is set. -/
def value? (machine : Machine) (name : Bytes) : Option Bytes :=
  match number? name with
  | some 0 => some machine.name
  | some (n + 1) => machine.parameters[n]?
  | none =>
    if name = ascii "#" then some (decimal machine.parameters.length)
    else if name = ascii "?" then some (decimal machine.status.toNat)
    else if name = ascii "$" then some (decimal processId)
    else if name = ascii "!" then
      if machine.background = [] then none
        else some (decimal (processId + machine.background.length))
    else if name = ascii "-" then some (Text.bytesOf (String.ofList machine.settings))
    else if name = ascii "@" then
      if machine.parameters = [] then none else some ([0x20].intercalate machine.parameters)
    else if name = ascii "*" then
      if machine.parameters = [] then none else some (machine.joint.intercalate machine.parameters)
    else if name = ascii "LINENO" then some (decimal machine.line)
    else machine.lookup? name

/-- Binds a name to a variable. -/
def bind (machine : Machine) (name : Bytes) (bound : Variable) : Machine :=
  { machine with bindings := (name, bound) :: machine.bindings.filter (·.1 ≠ name) }

/-- Forgets what a name was bound to. -/
def unbind (machine : Machine) (name : Bytes) : Machine :=
  { machine with bindings := machine.bindings.filter (·.1 ≠ name) }

/-- The variable that a name is bound to, or a new one. -/
def binding (machine : Machine) (name : Bytes) : Variable :=
  (machine.bindings.lookup name).getD ⟨none, machine.hasSetting 'a', false⟩

/-- The names in a directory, in order. -/
def names (machine : Machine) (directory : Location) : List Bytes :=
  inOrder (machine.files.entries.filterMap fun (location, _) =>
    match directory.isPrefixOf? location with
    | some [name] => some name
    | _ => none)

/-- The paths that a pattern with slashes stands for.  The segments are still to be matched;
`shown` is what has been matched, in the spelling of the pattern. -/
def expandPath (machine : Machine) (here : Location) (shown : Bytes) : List (List Mark) → List Bytes
  | [] => [shown]
  | segment :: rest =>
    let spelled := segment.map (·.octet)
    let pattern := Pattern.ofMarks segment
    let behind (name : Bytes) : Bytes :=
      shown ++ name ++ (if rest.isEmpty then [] else [Path.slash])
    if Path.isIdle spelled then
      if machine.files.get? here = some .directory then
        machine.expandPath here (behind spelled) rest
      else []
    else if spelled = [Path.dot, Path.dot] then
      machine.expandPath here.dropLast (behind spelled) rest
    else
      let hidden := spelled.head? = some Path.dot
      let dots := [[Path.dot], [Path.dot, Path.dot]]
      let candidates := if pattern.isLoose then dots ++ machine.names here else [spelled]
      let place (name : Bytes) : Location :=
        if name = [Path.dot] then here else if name = [Path.dot, Path.dot] then here.dropLast
        else here ++ [name]
      (candidates.filter fun name =>
        (!pattern.isLoose || pattern.accepts name) &&
        (hidden || name.head? ≠ some Path.dot) &&
        (machine.files.get? (place name)).isSome &&
        (rest.isEmpty || machine.files.get? (place name) = some .directory)).flatMap fun name =>
          machine.expandPath (place name) (behind name) rest

/-- Divides marks at slashes. -/
def segments (marks : List Mark) : List (List Mark) :=
  marks.foldr (fun mark pieces =>
    match pieces with
    | [] => [[mark]]
    | first :: rest =>
      if mark.octet = Path.slash then [] :: first :: rest else (mark :: first) :: rest) [[]]

/-- The words that an expanded word becomes: the paths that it stands for if it is a pattern and
there are any, or else itself. -/
def expandMarks (machine : Machine) (marks : List Mark) : List Bytes :=
  let itself := marks.map (·.octet)
  if (Pattern.ofMarks marks).isLoose && !machine.hasSetting 'f' then
    let isAbsolute := itself.head? = some Path.slash
    let start := if isAbsolute then [] else machine.files.base
    match inOrder (machine.expandPath start [] (segments marks)) with
    | [] => [itself]
    | paths => paths
  else [itself]

/-- The state at the start of a script. -/
def begin (files : FileTree) (name : Bytes) (parameters : List Bytes)
    (settings : List Char) : Machine where
  files := files
  name := name
  parameters := parameters
  bindings := [(ascii "OPTIND", ⟨some (ascii "1"), false, false⟩)]
  functions := []
  traps := []
  settings := settings
  status := 0
  substituted := 0
  background := []
  interrupted := none
  line := 1
  command := none
  loops := 0
  calls := 0
  saved := []
  streams := #[.void, .pipe [], .pipe []]
  channels := [(0, 0), (1, 1), (2, 2)]

/-- What a stream holds that has been written to it. -/
def held (machine : Machine) (id : Nat) : Bytes :=
  match machine.streams[id]? with
  | some (.pipe content) => content
  | _ => []

end Machine

/-- Writes octets to the output. -/
def emit (octets : Bytes) : Eval Unit := modify fun machine => machine.writeTo 1 octets

/-- Writes a line to the errors. -/
def complain (text : Bytes) : Eval Unit := modify fun machine => machine.writeTo 2 (text ++ [0x0a])

/-- Complains in the name of the shell. -/
def report (text : Bytes) : Eval Unit := do
  let machine ← get
  let command := match machine.command with
    | some name => name ++ ascii ": "
    | none => []
  complain (machine.name ++ ascii ": " ++ decimal machine.line ++ ascii ": " ++ command ++ text)

/-- Sets the status. -/
def finish (status : UInt8) : Eval Unit := modify fun machine => { machine with status }

/-- Complains in the name of the shell and halts. -/
def fail {α : Type} (text : Bytes) : Eval α := do
  report text
  finish 2
  throw .failed

/-- All that is left of the input. -/
def readAll : Eval Bytes := do
  let machine ← get
  let octets := machine.unread 0
  set (machine.advance 0 octets.length)
  return octets

/-- Gives a variable a value, unless it cannot be changed. -/
def assign (name value : Bytes) : Eval Unit := do
  let machine ← get
  let bound := machine.binding name
  if bound.fixed then fail (name ++ ascii ": is read only")
  else set (machine.bind name { bound with value := some value })

/-- The wording of a fault in the complaints of commands. -/
def reason : SystemFault → String
  | .noEntry => "No such file or directory"
  | .permissionDenied => "Permission denied"
  | .exists => "File exists"
  | .notDirectory => "Not a directory"
  | .isDirectory => "Is a directory"
  | .nameTooLong => "File name too long"
  | fault => fault.message

end EngineFuzz.Shell
