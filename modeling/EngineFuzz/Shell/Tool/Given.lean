import EngineFuzz.Shell.Builtin
/-!
# What tools are given

A tool is a program that a script can start by name.  It gets options and operands in any order,
reads the input or files, and ends with a status.  Complaints begin with the name of the tool.

* `Given.read` — the options and operands that arguments are;
* `Tool.contents` — the contents of the operands, or the input if there are none.
-/

namespace EngineFuzz.Shell

open Text (Bytes)

/-- The options that a tool knows: letters that stand for themselves, letters that are followed
by a value, and longer names of letters. -/
structure OptionTable where
  flags : String
  valued : String
  names : List (String × Char)
deriving DecidableEq, Repr

/-- Options with their values, and operands. -/
structure Given where
  options : List (Char × Bytes)
  operands : List Bytes
deriving DecidableEq, Repr

namespace Given

/-- Whether an option is given. -/
def has (given : Given) (letter : Char) : Bool := given.options.any (·.1 = letter)

/-- The values of an option, in order. -/
def values (given : Given) (letter : Char) : List Bytes :=
  given.options.filterMap fun (other, value) => if other = letter then some value else none

/-- The last value of an option. -/
def value? (given : Given) (letter : Char) : Option Bytes := (given.values letter).getLast?

/-- What is wrong with arguments. -/
inductive Fault where
  | unknown (text : Bytes)
  | missing (text : Bytes)
deriving DecidableEq, Repr

/-- The wording of a fault. -/
def Fault.message : Fault → Bytes
  | .unknown text =>
    if text.length = 1 then ascii "invalid option -- '" ++ text ++ ascii "'"
    else ascii "unrecognized option '" ++ text ++ ascii "'"
  | .missing text => ascii "option requires an argument -- '" ++ text ++ ascii "'"

/-- The options in a run of letters.  The last one may take the next argument as its value. -/
def letters (table : OptionTable) : (octets : Bytes) → (next : Option Bytes) →
    Except Fault (List (Char × Bytes) × Bool)
  | [], _ => .ok ([], false)
  | octet :: rest, next =>
    let letter := Char.ofNat octet.toNat
    if table.valued.toList.contains letter then
      match rest, next with
      | [], some value => .ok ([(letter, value)], true)
      | [], none => .error (.missing [octet])
      | rest, _ => .ok ([(letter, rest)], false)
    else if table.flags.toList.contains letter then do
      let (more, isTaken) ← letters table rest next
      return ((letter, []) :: more, isTaken)
    else .error (.unknown [octet])

/-- The option that a long name stands for; it may be shortened. -/
def long (table : OptionTable) (body : Bytes) : Except Fault (Char × Option Bytes) :=
  let name := body.takeWhile (· ≠ 0x3d)
  let value := if name.length < body.length then some (body.drop (name.length + 1)) else none
  let exact := table.names.find? fun (known, _) => name = ascii known
  match exact <|> table.names.find? fun (known, _) => name.isPrefixOf (ascii known) with
  | some (_, letter) => .ok (letter, value)
  | none => .error (.unknown (ascii "--" ++ body))

/-- Divides arguments into options and operands.  The bound is the number of arguments. -/
def read (table : OptionTable) : (bound : Nat) → List Bytes → Except Fault Given
  | _, [] => .ok ⟨[], []⟩
  | 0, args => .ok ⟨[], args⟩
  | bound + 1, arg :: args =>
    match arg with
    | [0x2d, 0x2d] => .ok ⟨[], args⟩
    | 0x2d :: 0x2d :: body => do
      let (letter, value) ← long table body
      let needsValue := table.valued.toList.contains letter
      match needsValue, value, args with
      | true, none, next :: args =>
        let given ← read table bound args
        return { given with options := (letter, next) :: given.options }
      | _, value, args =>
        let given ← read table bound args
        return { given with options := (letter, value.getD []) :: given.options }
    | 0x2d :: first :: body => do
      let (found, isTaken) ← letters table (first :: body) args.head?
      let given ← read table bound (if isTaken then args.tail else args)
      return { given with options := found ++ given.options }
    | arg => do
      let given ← read table bound args
      return { given with operands := arg :: given.operands }

end Given

namespace Tool

/-- Complains in the name of a tool. -/
def complainOf (tool : String) (text : Bytes) : Eval Unit := complain (ascii (tool ++ ": ") ++ text)

/-- Says that a tool is called in a wrong way. -/
def misuse (tool : String) (status : UInt8) (text : Bytes) : Eval Unit := do
  complainOf tool text
  complain (ascii ("Try '" ++ tool ++ " --help' for more information."))
  finish status

/-- Reads arguments and goes on with them. -/
def withGiven (tool : String) (status : UInt8) (table : OptionTable) (action : Given → Eval Unit) :
    Utility := fun args =>
  match Given.read table args.length args with
  | .ok given => action given
  | .error fault => misuse tool status fault.message

/-- Does something with each argument; the status tells whether all went well. -/
def each (args : List Bytes) (action : Bytes → Eval Bool) : Eval Unit := do
  let results ← args.mapM action
  finish (if results.all id then 0 else 1)

/-- An octet that cannot be seen, as it is written behind a backslash. -/
def hiddenOctet (b : UInt8) : Bytes :=
  let letters : List (UInt8 × Char) :=
    [(0x07, 'a'), (0x08, 'b'), (0x09, 't'), (0x0a, 'n'), (0x0b, 'v'), (0x0c, 'f'), (0x0d, 'r')]
  match letters.lookup b with
  | some letter => [0x5c, letter.toNat.toUInt8]
  | none => [0x5c, 0x30 + b / 64, 0x30 + b / 8 % 8, 0x30 + b % 8]

/-- Whether an octet can be seen. -/
def isSeen (b : UInt8) : Bool := 0x20 ≤ b && b < 0x7f

/-- Text between quotation marks. -/
def quoted (octets : Bytes) : Bytes :=
  0x27 :: octets.flatMap (fun b =>
    if b = 0x27 || b = 0x5c then [0x5c, b] else if isSeen b then [b] else hiddenOctet b) ++ [0x27]

/-- Whether a word stands for itself in a script and in complaints. -/
def isPlain (octets : Bytes) : Bool :=
  let special : Bytes := ascii " !\"$&()*;<=>[^`|'\\:?"
  octets ≠ [] && octets.all (fun b => isSeen b && !special.contains b) &&
    octets.head? ≠ some 0x23 && octets.head? ≠ some 0x7e && octets ≠ [0x7b] && octets ≠ [0x7d]

/-- Text as a word of a script that stands for it.  Octets that cannot be seen stand between
marks of their own. -/
def wordQuoted (octets : Bytes) : Bytes :=
  if octets.contains 0x27 && octets.all fun b => isSeen b && !(ascii "\"$`\\").contains b then
    0x22 :: octets ++ [0x22]
  else
    let (text, _) := octets.foldl (fun (text, isHidden) b =>
      if isSeen b then
        (text ++ (if isHidden then ascii "''" else []) ++
          (if b = 0x27 then ascii "'\\''" else [b]), false)
      else (text ++ (if isHidden then [] else ascii "'$'") ++ hiddenOctet b, true))
        (([0x27] : Bytes), false)
    text ++ [0x27]

/-- Whether the input is a directory. -/
def isDirectoryInput : Eval Bool := do
  let machine ← get
  match (machine.channels.lookup 0).bind fun id => machine.streams[id]? with
  | some (.file location _ _) => return machine.files.get? location = some .directory
  | _ => return false

/-- The content of an operand: the input for a hyphen, or else a file. -/
def content? (operand : Bytes) : Eval (Except SystemFault Bytes) := do
  if operand = [0x2d] then
    if ← isDirectoryInput then return .error .isDirectory
    else return .ok (← readAll)
  else if operand = ascii "/dev/null" then return .ok []
  else return (← get).files.read ⟨operand⟩

/-- The contents of the operands, or the input if there are none.  What cannot be read is
complained about in the given words. -/
def contents (tool : String) (wording : Bytes → SystemFault → Bytes) (operands : List Bytes)
    (action : Bytes → Bytes → Eval Unit) : Eval Unit :=
  each (if operands = [] then [[0x2d]] else operands) fun operand => do
    match ← content? operand with
    | .ok octets =>
      action operand octets
      return true
    | .error fault =>
      complainOf tool (wording operand fault)
      return false

/-- The usual words for a file that cannot be read. -/
def plainly (operand : Bytes) (fault : SystemFault) : Bytes :=
  (if isPlain operand then operand else wordQuoted operand) ++ ascii (": " ++ reason fault)

/-- The words for a file that cannot be read of tools that never quote names. -/
def barely (operand : Bytes) (fault : SystemFault) : Bytes :=
  operand ++ ascii (": " ++ reason fault)

/-- Changes the files, or leaves them alone and says why. -/
def change (operation : FileTree → Except SystemFault FileTree) : Eval (Option SystemFault) := do
  let machine ← get
  match operation machine.files with
  | .ok files =>
    set { machine with files }
    return none
  | .error fault => return some fault

end Tool

end EngineFuzz.Shell
