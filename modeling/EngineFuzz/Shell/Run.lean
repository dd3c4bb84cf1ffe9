import EngineFuzz.Shell.Redirect
import EngineFuzz.Shell.Tool.Table
/-!
# Running shell scripts

A phrase is run for its effect on the state of a shell.  Phrases that run apart — in pipes,
between parentheses, or for their output — change files and leave what they have written, and
everything else is as it was before them.

* `runText` — runs a script, which is read line by line;
* `run` — the effect of a phrase;
* `execute` — what comes of starting the shell with arguments.
-/

namespace EngineFuzz.Shell

open Text (Bytes)

/-- The greatest depth of a run. -/
def depth : Nat := 100000

/-! ### Scripts -/

/-- Runs the lines of a script that are left, and tells whether there were any.  The bound is
more than the number of lines. -/
def runLines (runOne : Phrase → Eval Unit) : (bound : Nat) → Scanner → Eval Bool
  | 0, _ => pure false
  | bound + 1, scanner =>
    match Scan.line? scanner with
    | .error fault => do
      modify fun machine => { machine with line := fault.line }
      fail (ascii ("Syntax error: " ++ fault.text))
    | .ok (none, _) => pure false
    | .ok (some phrases, scanner) => do
      phrases.forM fun phrase => do if !(← get).hasSetting 'n' then runOne phrase
      let _ ← runLines runOne bound scanner
      return true

/-- Runs a script.  One without phrases succeeds. -/
def runText (runOne : Phrase → Eval Unit) (script : Bytes) : Eval Unit := do
  if !(← runLines runOne (script.length + 1) (Scanner.begin script)) then finish 0

/-- Carries out the action of a trap, which leaves the status as it was. -/
def runAction (runOne : Phrase → Eval Unit) (action : Bytes) : Eval Unit := do
  let before ← get
  set { before with interrupted := some before.status }
  let halt ← attempt (runText runOne action)
  modify fun after => { after with
    interrupted := before.interrupted
    status := if halt.isSome then after.status else before.status }
  resume halt

/-- Carries out what is to be done at the end of a shell that has halted in some way or is over.
A shell that dies of a signal does nothing more. -/
def atEnd (runOne : Phrase → Eval Unit) (halt : Option Halt) : Eval (Option Halt) := do
  let machine ← get
  match halt, machine.traps.lookup 0 with
  | some (.killed signal), _ => return some (.killed signal)
  | halt, none => return halt
  | _, some action =>
    set { machine with traps := machine.traps.filter (·.1 ≠ 0) }
    attempt (runAction runOne action)

/-! ### Phrases that run apart -/

/-- Carries out an action apart. -/
def apart (runOne : Phrase → Eval Unit) (action : Eval Unit) : Eval Unit := do
  let before ← get
  set { before with traps := before.traps.filter (·.1 ≠ 0) }
  let halt ← atEnd runOne (← attempt action)
  modify fun after => { before with
    files := { after.files with base := before.files.base }
    streams := after.streams
    status := after.status }
  match halt with
  | some (.killed signal) => throw (.killed signal)
  | _ => pure ()

/-- Carries out an action apart and gives what it writes to its output. -/
def caught (runOne : Phrase → Eval Unit) (action : Eval Unit) : Eval Bytes := do
  let before ← get
  set (before.attach 1 (.pipe []))
  apart runOne action
  modify (before.putBack [1])
  return (← get).held before.streams.size

/-- Runs phrases apart, each on what the one before it writes. -/
def inPipe (runOne : Phrase → Eval Unit) : List Phrase → Eval Unit
  | [] => pure ()
  | [last] => apart runOne (runOne last)
  | phrase :: rest => do
    let before ← get
    let octets ← caught runOne (runOne phrase)
    modify fun machine => machine.attach 0 (.pipe octets)
    inPipe runOne rest
    modify (before.putBack [0])

/-! ### Loops -/

/-- Whether a loop goes on after a round, given how the round has halted. -/
def goesOn : Option Halt → Eval Bool
  | none => pure true
  | some (.again (levels + 2)) => throw (.again (levels + 1))
  | some (.leave (levels + 2)) => throw (.leave (levels + 1))
  | some (.again _) => pure true
  | some (.leave _) => pure false
  | some halt => throw halt

/-- Carries out an action inside one loop more. -/
def inLoop (action : Eval Unit) : Eval Unit := do
  modify fun machine => { machine with loops := machine.loops + 1 }
  let halt ← attempt action
  modify fun machine => { machine with loops := machine.loops - 1 }
  resume halt

/-- Carries out the rounds of a loop over words. -/
def eachRound (round : Bytes → Eval Unit) : List Bytes → Eval Unit
  | [] => pure ()
  | word :: rest => do if ← goesOn (← attempt (round word)) then eachRound round rest

/-- Carries out rounds for as long as a condition holds, or until it does.  The status is that
of the last round. -/
def rounds (untilSuccess : Bool) (condition body : Eval Unit) : (bound : Nat) →
    (last : UInt8) → Eval Unit
  | 0, _ => throw (.killed 9)
  | bound + 1, last => do
    match ← attempt condition with
    | none =>
      if ((← get).status = 0) = untilSuccess then finish last
      else
        let isOn ← goesOn (← attempt body)
        if isOn then rounds untilSuccess condition body bound (← get).status
    | halt => if ← goesOn halt then rounds untilSuccess condition body bound last

/-- Finds the clause of a choice that has a pattern for a word. -/
def clauseOf (pattern : Word → Eval Pattern) (word : Bytes) :
    List (List Word × Phrase) → Eval (Option Phrase)
  | [] => pure none
  | (patterns, body) :: rest => do
    let found ← patterns.foldlM (fun isFound wanted => do
      if isFound then return true else return (← pattern wanted).accepts word) false
    if found then return some body else clauseOf pattern word rest

/-! ### Commands -/

/-- Takes away the words that only say that what follows is a command and no function, and tells
whether there were any. -/
def unwrapped : List Bytes → Bool × List Bytes
  | word :: first :: rest =>
    if word ≠ ascii "command" then (false, word :: first :: rest)
    else if first = ascii "-p" || first = ascii "--" then
      if rest = [] then (false, [word]) else (true, rest)
    else if first.head? = some 0x2d then (false, word :: first :: rest)
    else (true, (unwrapped (first :: rest)).2)
  | words => (false, words)

/-- The path of the tool that a name stands for. -/
def toolPath? (name : Bytes) : Option Bytes :=
  if (Tool.named? name).isSome || name = ascii "sh" then some (ascii "/usr/bin/" ++ name)
  else if ((Tool.nameAt? name).bind Tool.named?).isSome then some name
  else none

/-- Says what a name stands for, in many words or as it would be called, and tells whether it
stands for anything. -/
def describe (inWords : Bool) (name : Bytes) : Eval Bool := do
  let say (words : String) : Eval Bool := do
    emit (name ++ (if inWords then ascii words else []) ++ [0x0a])
    return true
  if keywords.any fun known => ascii known = name then say " is a shell keyword"
  else if ((← get).functions.lookup name).isSome then say " is a shell function"
  else if Builtin.isBuiltin name then
    say (if Builtin.isSpecial name then " is a special shell builtin" else " is a shell builtin")
  else match toolPath? name with
    | some path =>
      emit ((if inWords then name ++ ascii " is " else []) ++ path ++ [0x0a])
      return true
    | none =>
      if inWords then emit (name ++ ascii ": not found\n")
      return false

/-- Says what names stand for. -/
def describeAll (inWords : Bool) (names : List Bytes) : Eval Unit := do
  let found ← names.mapM (describe inWords)
  finish (if found.all id then 0 else 127)

/-- Carries out a command of the shell in its name.  An error in a common one ends nothing but
it. -/
def inName (name : Bytes) (isSpecial : Bool) (action : Eval Unit) : Eval Unit := do
  let before := (← get).command
  modify fun machine => { machine with command := some name }
  let halt ← attempt action
  modify fun machine => { machine with command := before }
  if halt = some .failed && !isSpecial then pure () else resume halt

/-- Calls a function with parameters.  Its local variables are gone at its end. -/
def call (body : Eval Unit) (args : List Bytes) : Eval Unit := do
  let before ← get
  set { before with
    parameters := args, loops := 0, calls := before.calls + 1, saved := [] :: before.saved }
  let halt ← attempt body
  modify fun after =>
    let restored := (after.saved.headD []).foldl (fun machine (name, bound?) =>
      match bound? with
      | some bound => machine.bind name bound
      | none => machine.unbind name) after
    { restored with
      parameters := before.parameters, loops := before.loops, calls := before.calls,
      saved := before.saved }
  if halt = some .back then pure () else resume halt

/-- Runs a script that stands in a file. -/
def runFile (runOne : Phrase → Eval Unit) (path : Bytes) : Eval Unit := do
  if !path.contains Path.slash then fail (path ++ ascii ": not found")
  match (← get).files.read ⟨path⟩ with
  | .error fault => fail (ascii "cannot open " ++ path ++ ascii (": " ++ openingReason false fault))
  | .ok script =>
    modify fun machine => { machine with command := some path }
    match ← attempt (runText runOne script) with
    | some .back => pure ()
    | halt => resume halt

/-- Carries out an action with variables that are exported for as long as it takes. -/
def withAssignments (assignments : List (Bytes × Bytes)) (action : Eval Unit) : Eval Unit := do
  let before ← get
  assignments.forM fun (name, value) => do
    assign name value
    modify fun machine => machine.bind name { machine.binding name with exported := true }
  let halt ← attempt action
  modify fun after => assignments.foldl (fun machine (name, _) =>
    match before.bindings.lookup name with
    | some bound => machine.bind name bound
    | none => machine.unbind name) after
  resume halt

/-- Writes what is about to be carried out to the errors, if the settings say so.  The errors
are those from before the redirections. -/
def traceCommand (before : Machine) (assignments : List (Bytes × Bytes)) (words : List Bytes) :
    Eval Unit := do
  let machine ← get
  if machine.hasSetting 'x' then
    let mark := (machine.lookup? (ascii "PS4")).getD (ascii "+ ")
    let shown := assignments.map (fun (name, value) => name ++ 0x3d :: value) ++ words
    set (before.putBack [2] machine)
    complain (mark ++ [0x20].intercalate shown)
    modify (machine.putBack [2])

/-! ### Other shells -/

/-- How the death of a process by a signal is told. -/
def deathText (signal : Nat) : String :=
  (["Hangup", "Interrupt", "Quit", "Illegal instruction", "Trace/breakpoint trap", "Aborted",
    "Bus error", "Floating point exception", "Killed", "User defined signal 1",
    "Segmentation fault", "User defined signal 2", "Broken pipe", "Alarm clock", "Terminated",
    "Stack fault", "Child exited", "Continued", "Stopped (signal)", "Stopped",
    "Stopped (tty input)", "Stopped (tty output)", "Urgent I/O condition",
    "CPU time limit exceeded", "File size limit exceeded", "Virtual timer expired",
    "Profiling timer expired", "Window changed", "I/O possible", "Power failure",
    "Bad system call"][signal - 1]?).getD s!"Unknown signal {signal}"

/-- Runs a shell that has just been started with arguments: the script behind its option, or a
file, or else its input. -/
def runShell (runOne : Phrase → Eval Unit) (args : List Bytes) : Eval Unit := do
  let halt ← attempt do
    let (found, words, _) ← Builtin.takeSettings ['c', 'l'] args
    let enter (name : Bytes) (parameters : List Bytes) (script : Bytes) : Eval Unit := do
      modify fun machine => { machine with name, parameters, line := 1 }
      runText runOne script
    let name := (← get).name
    match found.contains 'c', words with
    | true, [] => fail (ascii "-c requires an argument")
    | true, script :: words => enter (words.headD name) words.tail script
    | false, words =>
      if words = [] || (← get).hasSetting 's' then
        Builtin.changeSetting true 's'
        enter name words (← readAll)
      else
        let path := words.headD []
        match (← get).files.read ⟨path⟩ with
        | .ok script => enter path words.tail script
        | .error .isDirectory => pure ()
        | .error fault =>
          fail (ascii "cannot open " ++ path ++ ascii (": " ++ openingReason false fault))
  resume (← atEnd runOne halt)

/-- The state of a shell that has just been started on files. -/
def Machine.fresh (files : FileTree) : Machine :=
  { Machine.begin files (ascii "sh") [] [] with line := 0 }

/-- Runs another shell on the files, the exported variables and the channels of this one.  If it
dies of a signal that is told, unless it takes the place of this one. -/
def runInner (runOne : Phrase → Eval Unit) (replaces : Bool) (args : List Bytes) : Eval Unit := do
  let before ← get
  let inner := Machine.fresh before.files
  let exported := before.bindings.filter fun (_, bound) => bound.exported
  let ignored := before.traps.filter fun (_, action) => action = []
  set { inner with
    bindings := exported ++ inner.bindings
    traps := ignored
    streams := before.streams
    channels := before.channels }
  let halt ← attempt (runShell runOne args)
  modify fun after => { before with
    files := { after.files with base := before.files.base }
    streams := after.streams
    status := after.status }
  match halt with
  | some (.killed signal) =>
    if replaces then throw (.killed signal)
    complain (ascii (deathText signal))
    finish (Builtin.killedStatus signal)
  | _ => pure ()

/-- Starts a program: a tool or another shell. -/
def start (runOne : Phrase → Eval Unit) (replaces : Bool) : List Bytes → Eval Unit
  | [] => finish 0
  | name :: args => do
    let isPath := name.contains Path.slash
    let tool := if isPath then Tool.nameAt? name else some name
    match tool.bind Tool.named? with
    | some utility => utility args
    | none =>
      if tool = some (ascii "sh") then runInner runOne replaces args
      else if name = [] || (isPath && (← get).files.holds ⟨name⟩) then
        report (name ++ ascii ": Permission denied")
        finish (if name = [] then 127 else 126)
      else
        report (name ++ ascii ": not found")
        finish 127

/-- Carries out a command of the shell itself. -/
def runBuiltin (runOne runHere : Phrase → Eval Unit) (name : Bytes)
    (args : List Bytes) : Eval Unit :=
  match Builtin.named? name with
  | some utility => utility args
  | none =>
    if name = ascii "eval" then runText runHere ([0x20].intercalate args)
    else if name = ascii "exec" then
      match args with
      | [] => finish 0
      | args => do
        start runOne true args
        modify fun machine => { machine with traps := [] }
        throw .ended
    else if name = ascii "." then
      match args with
      | [] => finish 0
      | path :: _ => runFile runOne path
    else if name = ascii "type" then describeAll true args
    else if name = ascii "kill" then Builtin.kill (runAction runOne) args
    else match args with
      | option :: names =>
        if option = ascii "-v" then describeAll false (names.take 1)
        else if option = ascii "-V" then describeAll true (names.take 1)
        else fail (ascii "Illegal option " ++ option.take 2)
      | [] => finish 0

/-! ### Phrases -/

/-- Ends the shell if something has gone wrong that nobody asks about, and the settings say so. -/
def checkStatus (tested : Bool) : Eval Unit := do
  let machine ← get
  if !tested && machine.status ≠ 0 && machine.hasSetting 'e' then throw .ended

/-- Carries out a command whose words are known, behind its redirections and with its assignments.
`values` expands the assignments; `body` runs the body of a function. -/
def runCommand (runOne runHere : Phrase → Eval Unit) (values : Eval (List (Bytes × Bytes)))
    (targets : List Target) (words : List Bytes) : Eval Unit := do
  let before ← get
  let (isDirect, words) := unwrapped words
  match words with
  | [] =>
    withTargets targets false (fun _ => pure ()) do
      let values ← values
      values.forM fun (name, value) => assign name value
      traceCommand before values words
      finish (← get).substituted
  | name :: args =>
    let isSpecial := !isDirect && Builtin.isSpecial name
    let stays := name = ascii "exec"
    withTargets targets stays (fun halt => if isSpecial then throw halt else pure ()) do
      let values ← values
      let action : Eval Unit := do
        traceCommand before values words
        let functions := (← get).functions
        match if isDirect then none else functions.lookup name with
        | some body => call (runHere body) args
        | none =>
          if Builtin.isBuiltin name then inName name isSpecial (runBuiltin runOne runHere name args)
          else start runOne false words
      if isSpecial then
        values.forM fun (name, value) => assign name value
        action
      else withAssignments values action

/-- The effect of a phrase.  `tested` tells that somebody asks whether it succeeds. -/
def run : (bound : Nat) → (tested : Bool) → Phrase → Eval Unit
  | 0, _, _ => throw (.killed 9)
  | bound + 1, tested, phrase =>
    let runOne := run bound false
    let runHere := run bound tested
    let output (phrase : Phrase) : Eval Bytes := do
      let status := (← get).status
      let octets ← caught runOne (runOne phrase)
      modify fun machine => { machine with status, substituted := machine.status }
      return octets
    let fragments (word : Word) : Eval (List Fragment) := expand output bound false word
    let single (word : Word) : Eval Bytes := do return Fragment.octets (← fragments word)
    let many (words : List Word) : Eval (List Bytes) := do
      let fields ← words.mapM fun word => do
        let found ← fragments word
        let machine ← get
        return (Fragment.fields machine.separators none false found).flatMap machine.expandMarks
      return fields.flatten
    let aims (redirections : List Redirection) : Eval (List Target) :=
      redirections.mapM fun (.mk channel kind target) => do
        let octets ← single target
        if kind = .duplicate && octets ≠ [0x2d] && (number? octets).isNone then
          fail (ascii "Syntax error: Bad fd number")
        return ⟨channel, kind, octets⟩
    let goTo (line : Nat) : Eval Unit := modify fun machine => { machine with line }
    match phrase with
    | .simple line assignments words redirections => do
      goTo line
      modify fun machine => { machine with substituted := 0 }
      let fields ← many words
      let targets ← aims redirections
      let values : Eval (List (Bytes × Bytes)) :=
        assignments.mapM fun (name, word) => do return (name, ← single word)
      runCommand runOne runHere values targets fields
      checkStatus tested
    | .pipe phrases => do
      inPipe runHere phrases
      checkStatus tested
    | .negated inner => do
      run bound true inner
      finish (if (← get).status = 0 then 1 else 0)
    | .both first second => do
      run bound true first
      if (← get).status = 0 then runHere second
    | .either first second => do
      run bound true first
      if (← get).status ≠ 0 then runHere second
    | .sequence phrases => phrases.forM runHere
    | .branch condition yes no => do
      run bound true condition
      if (← get).status = 0 then runHere yes
      else match no with
        | .sequence [] => finish 0
        | no => runHere no
    | .loop untilSuccess condition body =>
      inLoop (rounds untilSuccess (run bound true condition) (runHere body) bound 0)
    | .each line name words body => do
      goTo line
      let items ← many words
      if items = [] then finish 0
      inLoop (eachRound (fun item => do
        assign name item
        runHere body) items)
    | .choose line word clauses => do
      goTo line
      let value ← single word
      let pattern (word : Word) : Eval Pattern := do
        return Pattern.ofMarks (Fragment.joined (← fragments word))
      match ← clauseOf pattern value clauses with
      | none | some (.sequence []) => finish 0
      | some body => runHere body
    | .redirected line inner redirections => do
      goTo line
      let targets ← aims redirections
      withTargets targets false (fun _ => pure ()) (runHere inner)
    | .separate line inner redirections => do
      goTo line
      let targets ← aims redirections
      apart runOne (withTargets targets false throw (runHere inner))
      checkStatus tested
    | .background inner => do
      apart runOne do
        modify fun machine => machine.point 0 0
        runOne inner
      modify fun machine => { machine with
        background := machine.status :: machine.background, status := 0 }
    | .define name body => do
      modify fun machine => { machine with
        functions := (name, body) :: machine.functions.filter (·.1 ≠ name) }
      finish 0

/-! ### Starting the shell -/

/-- What comes of starting the shell with arguments.  The directory that the shell has gone to
is its own. -/
def execute (files : FileTree) (args : List String) : Outcome :=
  let (result, machine) :=
    ((runShell (run depth false) (args.map ascii)).run).run (Machine.fresh files)
  let status := match result with
    | .error (.killed signal) => ExitStatus.killed signal
    | _ => .exited machine.status
  ⟨status, machine.held 1, machine.held 2, { machine.files with base := files.base }⟩

end EngineFuzz.Shell
