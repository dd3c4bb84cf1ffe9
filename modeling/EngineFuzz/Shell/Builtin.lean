import EngineFuzz.Shell.Condition
import EngineFuzz.Shell.Fields
import EngineFuzz.Shell.Printf
import EngineFuzz.Shell.Reader
/-!
# Commands of the shell itself

These commands see and change the state of the shell that carries them out.  A command gets its
arguments and ends with a status; a few of them halt, and then end the shell, a function or the
round of a loop.
-/

namespace EngineFuzz.Shell

open Text (Bytes)

/-- What a command does with its arguments. -/
abbrev Utility := List Bytes → Eval Unit

namespace Builtin

/-- The number that an argument has to be. -/
def countOf (argument : Bytes) : Eval Nat :=
  match number? argument with
  | some n => pure n
  | none => fail (ascii "Illegal number: " ++ argument)

/-- Accepts a name of a variable. -/
def checkName (name : Bytes) : Eval Unit :=
  if isName (charsOf name) then pure () else fail (name ++ ascii ": bad variable name")

/-- Does nothing, with a status. -/
def idle (status : UInt8) : Utility := fun _ => finish status

/-- Writes words and a line feed. -/
def echo : Utility := fun args => do
  let quiet := args.head? = some (ascii "-n")
  let line := [0x20].intercalate (if quiet then args.tail else args)
  let (text, stop) := unescape line.length line
  emit (text ++ if quiet || stop then [] else [0x0a])
  finish 0

/-- Writes arguments by a format. -/
def printf : Utility := fun args => do
  let isEnd := args.head? = some (ascii "--")
  let first := args.headD []
  if !isEnd && first.head? = some 0x2d && first.length > 1 then
    fail (ascii "Illegal option " ++ first.take 2)
  match if isEnd then args.tail else args with
  | [] => fail (ascii "usage: printf format [arg ...]")
  | format :: args => do
    let good ← formatAll (args.length + 1) format args
    finish (if good then 0 else 1)

/-- Judges a condition. -/
def test : Utility := fun args => do
  match Condition.judge (← get).files args with
  | .ok value => finish (if value then 0 else 1)
  | .error text => fail text

/-- Judges a condition between brackets. -/
def bracket : Utility := fun args =>
  if args.getLast? = some (ascii "]") then test args.dropLast else fail (ascii "missing ]")

/-- The signal that a name or a number stands for. -/
def signal? (word : Bytes) : Option Nat :=
  match number? word with
  | some n => if n < 65 then some n else none
  | none =>
    let name := (Text.lossy word).toUpper
    if name = "EXIT" then some 0
    else (ExitStatus.signalNames.idxOf? ("SIG" ++ name)).map (· + 1)

/-- The name of a signal, without what all names of signals begin with. -/
def signalText (signal : Nat) : String :=
  if signal = 0 then "EXIT"
  else match ExitStatus.signalName? signal with
    | some name => String.ofList (name.toList.drop 3)
    | none => toString signal

/-- The signals that a process does not die of. -/
def harmless : List Nat := [0, 17, 18, 23, 28]

/-- The status of a command that ends at a signal. -/
def killedStatus (signal : Nat) : UInt8 := (128 + signal).toUInt8

/-- Sends a signal, which matters if it is sent to the shell itself.  `act` is what is done at a
signal that is caught. -/
def sendTo (act : Bytes → Eval Unit) (signal : Nat) : List Bytes → Eval Unit
  | [] => pure ()
  | target :: targets => do
    let machine ← get
    if target = decimal processId then
      match if signal = 9 then none else machine.traps.lookup signal with
      | some action => do
        finish 0
        act action
      | none => if harmless.contains signal then finish 0 else throw (.killed signal)
    else if (integer? target).isSome then
      report (ascii "No such process\n")
      finish 1
    else fail (ascii "Illegal number: " ++ target)
    sendTo act signal targets

/-- How signals are sent. -/
def killUsage : String :=
  "Usage: kill [-s sigspec | -signum | -sigspec] [pid | job]... or\nkill -l [exitstatus]"

/-- Sends a signal. -/
def kill (act : Bytes → Eval Unit) : Utility := fun args => do
  let send (signal : Nat) (targets : List Bytes) : Eval Unit := do
    let targets := if targets.head? = some (ascii "--") then targets.tail else targets
    if targets = [] then fail (ascii killUsage)
    finish 0
    sendTo act signal targets
  match args with
  | [] => fail (ascii killUsage)
  | option :: rest =>
    if option = ascii "-l" then
      match rest with
      | [] => (List.range 31).forM fun n => emit (ascii (signalText (n + 1) ++ "\n"))
      | word :: _ => emit (ascii (signalText ((← countOf word) % 128) ++ "\n"))
      finish 0
    else if option = ascii "-s" then
      match rest with
      | name :: targets =>
        match signal? name with
        | some signal => send signal targets
        | none => fail (ascii "invalid signal number or name: " ++ name)
      | [] => fail (ascii "No arg for -s option")
    else match option with
      | 0x2d :: name =>
        match signal? name with
        | some signal => send signal rest
        | none => fail (ascii "Illegal option -" ++ name.take 1)
      | _ => send 15 args

/-- Sets the status that is asked for, unless none is. -/
def setStatus (args : List Bytes) : Eval Unit := do
  match args with
  | word :: _ => finish (← countOf word).toUInt8
  | [] => pure ()

/-- Ends the shell.  In the action of a trap it ends as it would have ended before. -/
def exit : Utility := fun args => do
  match (← get).interrupted, args with
  | some status, [] => finish status
  | _, args => setStatus args
  throw .ended

/-- Leaves a function. -/
def giveBack : Utility := fun args => do
  setStatus args
  throw .back

/-- Leaves loops, or goes on with their next rounds. -/
def skipRounds (halt : Nat → Halt) : Utility := fun args => do
  let levels ← match args with
    | word :: _ => countOf word
    | [] => pure 1
  if levels = 0 then fail (ascii "Illegal number: 0")
  finish 0
  let loops := (← get).loops
  if loops ≠ 0 then throw (halt (min levels loops))

/-- Takes parameters away from the head. -/
def shift : Utility := fun args => do
  let count ← match args with
    | word :: _ => countOf word
    | [] => pure 1
  let machine ← get
  if machine.parameters.length < count then fail (ascii "can't shift that many")
  else set { machine with parameters := machine.parameters.drop count }
  finish 0

/-- The settings, each with its letter and its name, in the order in which they are listed. -/
def settings : List (Char × String) :=
  [('u', "nounset"), ('b', "notify"), ('a', "allexport"), ('C', "noclobber"), ('E', "emacs"),
    ('V', "vi"), ('v', "verbose"), ('x', "xtrace"), ('s', "stdin"), ('n', "noexec"),
    ('m', "monitor"), ('i', "interactive"), ('I', "ignoreeof"), ('f', "noglob"), ('e', "errexit")]

/-- Turns a setting on or off. -/
def changeSetting (isOn : Bool) (letter : Char) : Eval Unit := modify fun machine =>
  let chosen (other : Char) : Bool := if other = letter then isOn else machine.hasSetting other
  { machine with settings := (settings.map (·.1)).filter chosen }

/-- Takes options from the head of arguments.  What comes back is the letters of the caller's
own that are among them, what is left, and whether that replaces the parameters. -/
def takeSettings (own : List Char) : List Bytes → Eval (List Char × List Bytes × Bool)
  | [] => pure ([], [], false)
  | arg :: args => do
    let isOn := arg.head? = some 0x2d
    if arg = ascii "--" then return ([], args, true)
    else if arg = ascii "-" then return ([], args, args ≠ [])
    else if !isOn && arg.head? ≠ some 0x2b then return ([], arg :: args, true)
    else do
      let letters := charsOf arg.tail
      letters.forM fun letter =>
        if letter = 'o' || own.contains letter then pure ()
        else if (settings.lookup letter).isSome then changeSetting isOn letter
        else fail (ascii "Illegal option " ++ arg.take 1 ++ octetsOf [letter])
      let found := letters.filter own.contains
      if letters.contains 'o' then
        match args with
        | name :: args =>
          match settings.find? fun setting => ascii setting.2 = name with
          | some (letter, _) => do
            changeSetting isOn letter
            let (more, left) ← takeSettings own args
            return (found ++ more, left)
          | none => fail (ascii "Illegal option -o " ++ name)
        | [] => return (found, [], false)
      else do
        let (more, left) ← takeSettings own args
        return (found ++ more, left)

/-- Forgets variables or functions. -/
def forget : Utility := fun args => do
  let ofFunctions := args.head? = some (ascii "-f")
  let names := if ofFunctions || args.head? = some (ascii "-v") then args.tail else args
  names.forM fun name => do
    let machine ← get
    if ofFunctions then
      set { machine with functions := machine.functions.filter (·.1 ≠ name) }
    else
      checkName name
      if (machine.binding name).fixed then fail (name ++ ascii ": is read only")
      else set (machine.unbind name)
  finish 0

/-- A text as a word of a script that stands for it: runs of single quotation marks stand
between double ones, and all else between single ones.  The bound is the length of the text. -/
def inQuotes : (bound : Nat) → Bytes → Bytes
  | 0, octets => 0x27 :: octets ++ [0x27]
  | bound + 1, octets =>
    let head := octets.takeWhile (· ≠ 0x27)
    let rest := octets.drop head.length
    let marks := rest.takeWhile (· = 0x27)
    let behind := rest.drop marks.length
    let first := 0x27 :: head ++ [0x27]
    if marks = [] then first
    else
      let shown := first ++ 0x22 :: marks ++ [0x22]
      if behind = [] then shown else shown ++ inQuotes bound behind

/-- Changes settings and gives the shell new parameters, or lists the variables if nothing is
asked for. -/
def setParameters : Utility := fun args => do
  if args = [] then
    (inOrder ((← get).bindings.filterMap fun (name, bound) =>
      bound.value.map fun value => name ++ 0x3d :: inQuotes value.length value ++ [0x0a])).forM emit
  let (_, parameters, isReplaced) ← takeSettings [] args
  if isReplaced then modify fun machine => { machine with parameters }
  finish 0

/-- Gives variables a property, and values if there are any. -/
def declare (command : String) (has : Variable → Bool) (give : Variable → Variable) : Utility :=
  fun args => do
    if args = [] || args = [ascii "-p"] then
      let listed := (← get).bindings.filter fun (_, bound) => has bound
      (inOrder (listed.map fun (name, bound) => ascii (command ++ " ") ++ name ++
        (match bound.value with
          | some value => 0x3d :: inQuotes value.length value
          | none => []) ++ [0x0a])).forM emit
    else
      args.forM fun arg => do
        let name := arg.takeWhile (· ≠ 0x3d)
        checkName name
        if name.length < arg.length then assign name (arg.drop (name.length + 1))
        modify fun machine => machine.bind name (give (machine.binding name))
    finish 0

/-- Makes variables those of a function, which gives them back at its end. -/
def makeLocal : Utility := fun args => do
  if (← get).calls = 0 then fail (ascii "not in a function")
  args.forM fun arg => do
    let name := arg.takeWhile (· ≠ 0x3d)
    checkName name
    modify fun machine =>
      match machine.saved with
      | inner :: outer =>
        if (inner.lookup name).isSome then machine
        else { machine with saved := ((name, machine.bindings.lookup name) :: inner) :: outer }
      | [] => machine
    if name.length < arg.length then assign name (arg.drop (name.length + 1))
  finish 0

/-- The path of a location. -/
def pathOf (location : Location) : Bytes :=
  if location = [] then [Path.slash] else location.flatMap (Path.slash :: ·)

/-- Goes to a directory. -/
def cd : Utility := fun args => do
  let machine ← get
  let args := args.filter fun arg => arg ≠ ascii "--" && arg ≠ ascii "-P" && arg ≠ ascii "-L"
  let target := match args with
    | path :: _ =>
      if path = ascii "-" then (machine.lookup? (ascii "OLDPWD")).getD []
      else path
    | [] => (machine.lookup? (ascii "HOME")).getD []
  if target = [] then finish 0
  else match machine.files.resolve ⟨target⟩ with
    | .ok location =>
      if machine.files.get? location = some .directory then
        set { machine with files.base := location }
        assign (ascii "OLDPWD") (pathOf machine.files.base)
        assign (ascii "PWD") (pathOf location)
        if args.head? = some (ascii "-") then emit (pathOf location ++ [0x0a])
        finish 0
      else fail (ascii "can't cd to " ++ target)
    | .error _ => fail (ascii "can't cd to " ++ target)

/-- Writes where the shell is. -/
def pwd : Utility := fun _ => do
  emit (pathOf (← get).files.base ++ [0x0a])
  finish 0

/-- A line of the input, in which octets behind backslashes do not divide, and whether its end
was found.  The bound is the length of the input. -/
def takeLine (raw : Bool) : (bound : Nat) → Bytes → List (UInt8 × Bool) × Nat × Bool
  | 0, _ => ([], 0, false)
  | _, [] => ([], 0, false)
  | bound + 1, b :: rest =>
    if b = 0x0a then ([], 1, true)
    else if b = 0x5c && !raw then
      match rest with
      | c :: rest =>
        let (line, count, found) := takeLine raw bound rest
        (if c = 0x0a then line else (c, false) :: line, count + 2, found)
      | [] => ([], 1, false)
    else
      let (line, count, found) := takeLine raw bound rest
      ((b, true) :: line, count + 1, found)

/-- Divides a line among names; the last one gets all that is left. -/
def divide (separators : Bytes) : (names : List Bytes) → List (UInt8 × Bool) → List (Bytes × Bytes)
  | [], _ => []
  | name :: names, line =>
    let isSeparator (mark : UInt8 × Bool) : Bool := mark.2 && separators.contains mark.1
    let isSpace (mark : UInt8 × Bool) : Bool := isSeparator mark && Fragment.isGap mark.1
    let line := line.dropWhile isSpace
    let first := line.takeWhile fun mark => !isSeparator mark
    let behind := (line.drop first.length).dropWhile isSpace
    let left := match behind with
      | mark :: rest => if isSeparator mark then rest.dropWhile isSpace else behind
      | [] => []
    if names = [] then
      let whole := if left = [] then first else (line.reverse.dropWhile isSpace).reverse
      [(name, whole.map (·.1))]
    else (name, first.map (·.1)) :: divide separators names left

/-- Takes a line of the input. -/
def read : Utility := fun args => do
  let isOption (arg : Bytes) : Bool := arg.head? = some 0x2d && arg.length > 1
  let raw := (args.takeWhile isOption).contains (ascii "-r")
  let names := args.dropWhile isOption
  if names = [] then fail (ascii "arg count")
  names.forM checkName
  let machine ← get
  let input := machine.unread 0
  let (line, count, found) := takeLine raw input.length input
  set (machine.advance 0 count)
  (divide machine.separators names line).forM fun (name, value) => assign name value
  finish (if found then 0 else 1)

/-- Says what is to be done at the end and at signals. -/
def trap : Utility := fun args => do
  let args := if args.head? = some (ascii "--") then args.tail else args
  let change (action : Option Bytes) (conditions : List Bytes) : Eval Unit := do
    conditions.forM fun condition =>
      match signal? condition with
      | some signal => modify fun machine =>
        let others := machine.traps.filter (·.1 ≠ signal)
        { machine with traps := match action with
          | some action => (signal, action) :: others
          | none => others }
      | none => do
        complain (ascii "trap: " ++ condition ++ ascii ": bad trap")
        finish 1
  finish 0
  match args with
  | [] =>
    ((← get).traps.mergeSort fun a b => a.1 ≤ b.1).forM fun (signal, action) =>
      emit (ascii "trap -- " ++ inQuotes action.length action ++
        ascii (" " ++ signalText signal ++ "\n"))
  | action :: conditions =>
    if conditions = [] || (number? action).isSome then change none args
    else if action = ascii "-" then change none conditions
    else change (some action) conditions

/-- Takes the next letter of an option from words.  The variables tell the number of the next
word and how far the word before it has been read. -/
def getopts : Utility := fun args => do
  match args with
  | letters :: name :: given => do
    let machine ← get
    let words := if given = [] then machine.parameters else given
    let place := max 1 (((machine.lookup? (ascii "OPTIND")).bind number?).getD 1)
    let current := ((machine.lookup? (ascii "OPTOFF")).bind number?).bind fun offset =>
      if place ≤ 1 then none else (words[place - 2]?).map (·.drop offset)
    let isSilent := letters.head? = some 0x3a
    let settle (place : Nat) (rest : Bytes) (value : Bytes) (status : UInt8) : Eval Unit := do
      assign (ascii "OPTIND") (decimal place)
      let word := (words[place - 2]?).getD []
      assign (ascii "OPTOFF")
        (decimal (if rest = [] then word.length else word.length - rest.length))
      assign name value
      finish status
    let choose (place : Nat) (letter : UInt8) (rest : Bytes) : Eval Unit := do
      let known := letters.dropWhile (· ≠ letter)
      if known = [] || letter = 0x3a then
        if isSilent then assign (ascii "OPTARG") [letter]
        else
          complain (ascii "Illegal option -" ++ [letter])
          modify fun machine => machine.unbind (ascii "OPTARG")
        settle place rest [0x3f] 0
      else if known.tail.head? ≠ some 0x3a then
        assign (ascii "OPTARG") []
        settle place rest [letter] 0
      else match rest, words[place - 1]? with
        | [], none =>
          if isSilent then
            assign (ascii "OPTARG") [letter]
            settle place [] [0x3a] 0
          else
            complain (ascii "No arg for -" ++ [letter] ++ ascii " option")
            modify fun machine => machine.unbind (ascii "OPTARG")
            settle place [] [0x3f] 0
        | [], some value =>
          assign (ascii "OPTARG") value
          settle (place + 1) [] [letter] 0
        | value, _ =>
          assign (ascii "OPTARG") value
          settle place [] [letter] 0
    match current.getD [] with
    | letter :: rest => choose place letter rest
    | [] =>
      match words[place - 1]? with
      | some [0x2d, 0x2d] => settle (place + 1) [] [0x3f] 1
      | some (0x2d :: letter :: rest) => choose (place + 1) letter rest
      | _ => settle place [] [0x3f] 1
  | _ => fail (ascii "usage: getopts optstring var [arg...]")

/-- Gives the status of a phrase that has been run in the background. -/
def wait : Utility := fun args => do
  let statuses := (← get).background.reverse
  let statusOf (arg : Bytes) : UInt8 :=
    match number? arg with
    | some n => if n ≤ processId then 127 else (statuses[n - processId - 1]?).getD 127
    | none => 127
  finish ((args.getLast?.map statusOf).getD 0)

/-- Writes the mask of new files. -/
def umask : Utility := fun args => do
  if args = [] then emit (ascii "0022\n")
  finish 0

/-- Writes a limit. -/
def ulimit : Utility := fun _ => do
  emit (ascii "unlimited\n")
  finish 0

/-- The commands by name, those left out that run phrases. -/
def table : List (String × Utility) :=
  [(":", idle 0), ("true", idle 0), ("false", idle 1), ("echo", echo), ("printf", printf),
    ("test", test), ("[", bracket), ("exit", exit), ("return", giveBack),
    ("break", skipRounds .leave), ("continue", skipRounds .again), ("shift", shift),
    ("set", setParameters), ("unset", forget),
    ("export", declare "export" (·.exported) fun bound => { bound with exported := true }),
    ("readonly", declare "readonly" (·.fixed) fun bound => { bound with fixed := true }),
    ("local", makeLocal), ("cd", cd), ("chdir", cd), ("pwd", pwd), ("read", read), ("trap", trap),
    ("getopts", getopts), ("umask", umask), ("ulimit", ulimit), ("wait", wait), ("jobs", idle 0),
    ("hash", idle 0), ("alias", idle 0), ("unalias", idle 0), ("times", idle 0), ("bg", idle 0),
    ("fg", idle 0)]

/-- The commands that run phrases. -/
def runners : List String := [".", "command", "eval", "exec", "kill", "type"]

/-- What the command of a name does. -/
def named? (name : Bytes) : Option Utility :=
  (table.find? fun (known, _) => ascii known = name).map (·.2)

/-- Whether a name is that of a command of the shell. -/
def isBuiltin (name : Bytes) : Bool :=
  (named? name).isSome || runners.any fun known => ascii known = name

/-- Whether a name is that of a command that belongs to the language itself. -/
def isSpecial (name : Bytes) : Bool := specialCommands.any fun known => ascii known = name

end Builtin

end EngineFuzz.Shell
