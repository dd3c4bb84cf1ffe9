import EngineFuzz.Shell.Machine
/-!
# Redirections

A redirection points a channel to a file, to where another channel leads, or to a text.  While
an action is carried out with redirections only the channels that they name are changed, and
those lead back to where they led before when it is over.

* `redirect` — points one channel to where a redirection leads;
* `withTargets` — carries out an action with channels redirected.
-/

namespace EngineFuzz.Shell

open Text (Bytes)

/-- A redirection whose target has been expanded. -/
structure Target where
  channel : Nat
  kind : RedirectionKind
  octets : Bytes
deriving DecidableEq, Repr

/-- Carries out an action and says how it halts, if it does. -/
def attempt (action : Eval Unit) : Eval (Option Halt) :=
  tryCatch (do
    action
    return none) fun halt => return some halt

/-- Halts as another action has halted, or goes on if it has not. -/
def resume : Option Halt → Eval Unit
  | some halt => throw halt
  | none => pure ()

/-- The wording of a fault in the complaints about redirections. -/
def openingReason (creates : Bool) (fault : SystemFault) : String :=
  match fault with
  | .noEntry | .notDirectory => if creates then "Directory nonexistent" else "No such file"
  | fault => reason fault

/-- The channel to which the path of a device leads. -/
def deviceChannel? (path : Bytes) : Option Nat :=
  if path = ascii "/dev/stdin" then some 0
  else if path = ascii "/dev/stdout" then some 1
  else if path = ascii "/dev/stderr" then some 2
  else (List.isPrefixOf? (ascii "/dev/fd/") path).bind number?

/-- Points a channel to where another one leads. -/
def duplicate (channel other : Nat) : Eval Unit := do
  let machine ← get
  match machine.channels.lookup other with
  | some id => set (machine.point channel id)
  | none => fail (decimal other ++ ascii ": Bad file descriptor")

/-- Points a channel to a file, which is made if it may be written to. -/
def openFile (channel : Nat) (kind : RedirectionKind) (path : Bytes) : Eval Unit := do
  let machine ← get
  let creates := kind ≠ .read
  let refuse (fault : SystemFault) : Eval Unit :=
    fail (ascii (if creates then "cannot create " else "cannot open ") ++ path ++
      ascii (": " ++ openingReason creates fault))
  let content := match kind, machine.files.read ⟨path⟩ with
    | .write _, _ => []
    | _, .ok content => content
    | _, .error _ => []
  let opened : Except SystemFault FileTree :=
    if !creates then .ok machine.files
    else if kind = .write false && machine.hasSetting 'C' && machine.files.isFile ⟨path⟩ then
      .error .exists
    else machine.files.write ⟨path⟩ content
  match opened with
  | .error fault => refuse fault
  | .ok files =>
    match files.resolve ⟨path⟩ with
    | .error fault => refuse fault
    | .ok location =>
      let stream := Stream.file location 0 (kind = RedirectionKind.append)
      set ({ machine with files }.attach channel stream)

/-- Points a channel to where a redirection leads. -/
def redirect (target : Target) : Eval Unit :=
  match target.kind with
  | .document => modify fun machine => machine.attach target.channel (.pipe target.octets)
  | .duplicate =>
    if target.octets = [0x2d] then modify fun machine => machine.close target.channel
    else match number? target.octets with
      | some other => duplicate target.channel other
      | none => pure ()
  | kind =>
    if target.octets = ascii "/dev/null" then
      modify fun machine => machine.attach target.channel .void
    else match deviceChannel? target.octets with
      | some other => duplicate target.channel other
      | none => openFile target.channel kind target.octets

/-- The state with channels that lead where they led before. -/
def Machine.putBack (before : Machine) (channels : List Nat) (after : Machine) : Machine :=
  channels.foldl (fun machine channel =>
    match before.channels.lookup channel with
    | some id => machine.point channel id
    | none => machine.close channel) after

/-- Carries out an action with channels redirected.  If that cannot be done something else is done
instead.  The channels lead back afterwards, unless they are to stay. -/
def withTargets (targets : List Target) (stays : Bool) (otherwise : Halt → Eval Unit)
    (action : Eval Unit) : Eval Unit := do
  let before ← get
  let halt ← attempt do
    match ← attempt (targets.forM redirect) with
    | none => action
    | some halt => otherwise halt
  if !stays then modify (before.putBack (targets.map (·.channel)))
  resume halt

end EngineFuzz.Shell
