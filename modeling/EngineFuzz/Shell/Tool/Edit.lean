import EngineFuzz.Shell.Edit.Cycle
import EngineFuzz.Shell.Edit.Reader
import EngineFuzz.Shell.Tool.Given
/-!
# The line editor as a tool

The editor gets its script as options or as its first operand, and edits the operands that are
left one after the other, or the input, or every file in its own place.
-/

namespace EngineFuzz.Shell.Tool

open Text (Bytes)

/-- The parts of a script: those that stand in the arguments and those that stand in files,
unless one of the files cannot be read. -/
def scriptParts : List (Char × Bytes) → Eval (Option (List Bytes))
  | [] => pure (some [])
  | (letter, value) :: options => do
    let found ← if letter = 'e' then pure (.ok [value])
      else if letter = 'f' then do pure ((← content? value).map fun octets => [withoutFeed octets])
      else pure (.ok [])
    match found with
    | .ok parts => return (← scriptParts options).map (parts ++ ·)
    | .error fault =>
      complainOf "sed" (ascii "couldn't open file " ++ barely value fault)
      return none

/-- The part of a script in which something is wrong, and how many octets of it had been read. -/
def placeIn : (number : Nat) → (count : Nat) → List Bytes → Nat × Nat
  | number, count, part :: next :: parts =>
    if part.length + 1 < count then placeIn (number + 1) (count - part.length - 1) (next :: parts)
    else (number, count)
  | number, count, _ => (number, count)

/-- The wording of what is wrong with a script. -/
def faultText (parts : List Bytes) : Edit.Fault → Bytes
  | .placed count text =>
    let (number, count) := placeIn 1 count parts
    ascii s!"-e expression #{number}, char {count}: {text}"
  | .unmatched => ascii r"-e expression #1, char 0: unmatched `{'"
  | .noLabel name => ascii "can't find label for jump to `" ++ name ++ ascii "'"

/-- Writes what the editor has written to files. -/
def storeFiles (files : List (Bytes × Bytes)) : Eval Unit :=
  files.forM fun (path, octets) => do
    let _ ← change fun files => files.write ⟨path⟩ octets

/-- Reads the operands that can be read; directories cannot. -/
def readTexts (operands : List Bytes) : Eval (List (Bytes × Bytes) × UInt8) := do
  let found ← operands.mapM fun operand => do
    match ← content? operand with
    | .ok octets => return (some (operand, octets), (0 : UInt8))
    | .error fault =>
      if fault = .isDirectory then complainOf "sed" (ascii "read error on " ++ barely operand fault)
      else complainOf "sed" (ascii "can't read " ++ barely operand fault)
      return (none, if fault = .isDirectory then 4 else 2)
  return (found.filterMap (·.1), (found.map (·.2)).foldl max 0)

/-- Edits texts as one, and gives the status. -/
def editTogether (setting : Edit.Setting) (texts : List (Bytes × Bytes)) : Eval Nat := do
  let lines := texts.flatMap fun (_, octets) => linesOf octets
  let name := (texts.head?.map (·.1)).getD [0x2d]
  let files := (Edit.Editor.targets setting.program).map fun path => (path, [])
  let (status, editor) := Edit.Editor.edit { setting with name } lines files
  emit editor.output
  storeFiles (editor.files.filter fun (path, _) => path ≠ ascii "/dev/stdout")
  return status

/-- Edits texts one by one, each in its own place if asked for, and gives the status. -/
def editApart (setting : Edit.Setting) (inPlace : Option Bytes) : List (Bytes × Bytes) →
    (files : List (Bytes × Bytes)) → Eval Nat
  | [], files => do
    storeFiles (files.filter fun (path, _) => path ≠ ascii "/dev/stdout")
    return 0
  | (path, octets) :: texts, files => do
    let (status, editor) := Edit.Editor.edit { setting with name := path } (linesOf octets) files
    match inPlace with
    | some ending =>
      if ending ≠ [] then
        let _ ← change fun files => files.write ⟨path ++ ending⟩ octets
      let _ ← change fun files => files.write ⟨path⟩ editor.output
    | none => emit editor.output
    if status ≠ 0 then return status else editApart setting inPlace texts editor.files

/-- The ending of the copies that an option for editing in place asks for, if arguments have one. -/
def endingOf (args : List Bytes) : Option Bytes :=
  args.findSome? fun arg => (List.isPrefixOf? (ascii "-i") arg) <|>
    (List.isPrefixOf? (ascii "--in-place=") arg)

/-- The arguments with the option for editing in place in its plain form. -/
def plainArguments (args : List Bytes) : List Bytes :=
  args.map fun arg =>
    if (ascii "-i").isPrefixOf arg then ascii "-i"
    else if (ascii "--in-place").isPrefixOf arg then ascii "-i"
    else arg

/-- How the editor is called. -/
def editUsage : String :=
  "Usage: sed [OPTION]... {script-only-if-no-other-script} [input-file]...\n"

/-- Edits lines by a script. -/
def sed : Utility := fun args => withGiven "sed" 1
    ⟨"nErsuzi", "efl", [("quiet", 'n'), ("silent", 'n'), ("regexp-extended", 'E'),
      ("expression", 'e'), ("file", 'f'), ("separate", 's'), ("in-place", 'i'),
      ("unbuffered", 'u'), ("null-data", 'z')]⟩
    (fun given => do
  match ← scriptParts given.options with
  | none => finish 4
  | some parts =>
  if parts = [] && given.operands = [] then
    complain (ascii editUsage)
    finish 1
  else
    let (parts, operands) := if parts = [] then (given.operands.take 1, given.operands.drop 1)
      else (parts, given.operands)
    let script := [0x0a].intercalate parts
    let isSilent := (ascii "#n\n").isPrefixOf script || script = ascii "#n"
    match Edit.parse (given.has 'E' || given.has 'r') script with
    | .error fault =>
      complainOf "sed" (faultText parts fault)
      finish (match fault with
        | .noLabel _ => 4
        | _ => 1)
    | .ok program =>
      if given.has 'i' && operands = [] then
        complainOf "sed" (ascii "no input files")
        finish 4
      else
      let files := (← get).files
      let contents (path : Bytes) : Bytes := (files.read ⟨path⟩).toOption.getD []
      let setting : Edit.Setting := ⟨program, given.has 'n' || isSilent, [0x2d], contents⟩
      let (texts, fault) ← readTexts (if operands = [] then [[0x2d]] else operands)
      let targets := (Edit.Editor.targets program).map fun path => (path, [])
      let status ←
        if given.has 'i' then editApart setting (some ((endingOf args).getD [])) texts targets
        else if given.has 's' then editApart setting none texts targets
        else editTogether setting texts
      finish (if status ≠ 0 then status.toUInt8 else fault))
  (plainArguments args)

end EngineFuzz.Shell.Tool
