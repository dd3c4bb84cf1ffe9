import EngineFuzz.Shell.Tool.Given
/-!
# Tools for files and directories

Tools that make, move, copy, remove and list files and directories, and tools that take paths apart.
-/

namespace EngineFuzz.Shell.Tool

open Text (Bytes)

/-- A table of options that stand for themselves. -/
def flagsOnly (flags : String) : OptionTable := ⟨flags, "", []⟩

/-- Everything at and below a location. -/
def below (files : FileTree) (location : Location) : List Location :=
  (files.entries.filter fun (other, _) => location.isPrefixOf other).map (·.1)

/-- Removes what a path leads to, with everything below it. -/
def removeAll (path : Path) (files : FileTree) : Except SystemFault FileTree := do
  let location ← files.resolve path
  return (below files location).foldl FileTree.erase files

/-- Removes files, and directories if asked for. -/
def rm : Utility := withGiven "rm" 1
    ⟨"rRfvdi", "", [("recursive", 'r'), ("force", 'f'), ("verbose", 'v'), ("dir", 'd')]⟩
      fun given => do
  let deep := given.has 'r' || given.has 'R'
  if given.operands = [] && !given.has 'f' then misuse "rm" 1 (ascii "missing operand")
  else each given.operands fun path => do
    let machine ← get
    let isDirectory := machine.files.isDirectory ⟨path⟩
    let last := (Path.segmentsOf path).reverse.find? (· ≠ [])
    if deep && isDirectory && (last = some [Path.dot] || last = some [Path.dot, Path.dot]) then
      complainOf "rm" (ascii "refusing to remove '.' or '..' directory: skipping " ++
        wordQuoted path)
      return false
    let isEmpty := match machine.files.resolve ⟨path⟩ with
      | .ok location => (machine.names location).isEmpty
      | .error _ => false
    if given.has 'd' && !deep && isDirectory && !isEmpty then
      complainOf "rm" (ascii "cannot remove " ++ wordQuoted path ++ ascii ": Directory not empty")
      return false
    let deep := deep || given.has 'd'
    match ← change fun files => if deep then removeAll ⟨path⟩ files else files.remove ⟨path⟩ with
    | none =>
      if given.has 'v' then
        emit (ascii (if isDirectory then "removed directory " else "removed ") ++
          wordQuoted path ++ [0x0a])
      return true
    | some fault =>
      if given.has 'f' && (fault = .noEntry || fault = .notDirectory) then return true
      complainOf "rm" (ascii "cannot remove " ++ wordQuoted path ++ ascii (": " ++ reason fault))
      return false

/-- The heads of a path that end before a slash, the shortest first. -/
def headsOf (path : Bytes) : List Bytes :=
  (List.range path.length).filterMap fun n =>
    if n ≠ 0 && path[n]? = some Path.slash then some (path.take n) else none

/-- Makes directories. -/
def mkdir : Utility :=
  withGiven "mkdir" 1 ⟨"pv", "m", [("parents", 'p'), ("mode", 'm')]⟩ fun given => do
  if given.operands = [] then misuse "mkdir" 1 (ascii "missing operand")
  else each given.operands fun path => do
    let machine ← get
    let fault ← if given.has 'p' then do
        let (files, result) := machine.files.makeDirectories ⟨path⟩
        set { machine with files }
        match result with
        | .ok () => pure none
        | .error fault => pure (some fault)
      else change fun files => files.makeDirectory ⟨path⟩
    match fault with
    | none =>
      if given.has 'v' && !machine.files.holds ⟨path⟩ then
        emit (ascii "mkdir: created directory " ++ quoted path ++ [0x0a])
      return true
    | some fault =>
      let culprit := if given.has 'p' && fault = .notDirectory then
          (((headsOf path).find? fun head => machine.files.isFile ⟨head⟩).getD path)
        else path
      complainOf "mkdir" (ascii "cannot create directory " ++ quoted culprit ++
        ascii (": " ++ reason fault))
      return false

/-- Removes directories that are empty. -/
def rmdir : Utility := withGiven "rmdir" 1 (flagsOnly "pv") fun given => do
  if given.operands = [] then misuse "rmdir" 1 (ascii "missing operand")
  else each given.operands fun path => do
    let machine ← get
    let refuse (text : String) : Eval Bool := do
      complainOf "rmdir" (ascii "failed to remove " ++ wordQuoted path ++ ascii (": " ++ text))
      return false
    match machine.files.resolve ⟨path⟩ with
    | .error fault => refuse (reason fault)
    | .ok location =>
      if machine.files.get? location ≠ some .directory then refuse (reason .notDirectory)
      else if (machine.names location).isEmpty then
        set { machine with files := machine.files.erase location }
        return true
      else refuse "Directory not empty"

/-- Makes files that are missing. -/
def touch : Utility := withGiven "touch" 1 ⟨"camf", "rtd", []⟩ fun given => do
  if given.operands = [] then misuse "touch" 1 (ascii "missing file operand")
  else each given.operands fun path => do
    if (← get).files.holds ⟨path⟩ || given.has 'c' then return true
    match ← change fun files => files.create ⟨path⟩ [] with
    | none => return true
    | some fault =>
      complainOf "touch" (ascii "cannot touch " ++ wordQuoted path ++ ascii (": " ++ reason fault))
      return false

/-- Where something is put: under its own name if a directory is given. -/
def destination (files : FileTree) (source target : Bytes) : Bytes :=
  if files.isDirectory ⟨target⟩ then
    (Path.join ⟨target⟩ ⟨((⟨source⟩ : Path).fileName?).getD []⟩).bytes
  else target

/-- Puts what stands at and below one location at another. -/
def transplant (files : FileTree) (old new : Location) : FileTree :=
  (files.entries.filterMap fun (location, entry) =>
    (old.isPrefixOf? location).map fun rest => (new ++ rest, entry)).foldl
      (fun files (location, entry) => files.insert location entry) files

/-- Puts what is at a path at another one, and takes it away from there if it is to be moved. -/
def carry (isMove : Bool) (source target : Bytes) (files : FileTree) :
    Except SystemFault FileTree := do
  let old ← files.resolve ⟨source⟩
  match files.get? old, isMove with
  | some (.file content), false => files.write ⟨target⟩ content
  | _, _ =>
    match ← files.target ⟨target⟩ with
    | (directory, .name name _) =>
      let new := directory ++ [name]
      let moved := transplant files old new
      return if isMove then (below files old).foldl FileTree.erase moved else moved
    | (_, .dots) => throw .exists

/-- Whether a path would make a name at or below a location. -/
def isInside (files : FileTree) (location : Location) (path : Bytes) : Bool :=
  match files.target ⟨path⟩ with
  | .ok (directory, .name name _) => location.isPrefixOf (directory ++ [name])
  | _ => false

/-- Copies or moves each source to the last operand. -/
def transfer (tool : String) (isMove : Bool) : Utility := withGiven tool 1
    ⟨"rRfvapdinTuL", "t", [("recursive", 'r'), ("force", 'f'), ("verbose", 'v')]⟩ fun given => do
  let deep := isMove || given.has 'r' || given.has 'R' || given.has 'a'
  match given.operands.reverse with
  | [] => misuse tool 1 (ascii "missing file operand")
  | [only] => misuse tool 1 (ascii "missing destination file operand after " ++ wordQuoted only)
  | target :: source :: others =>
    let files := (← get).files
    if others ≠ [] && !files.isDirectory ⟨target⟩ then
      complainOf tool (ascii "target " ++ wordQuoted target ++
        ascii (": " ++ reason (if files.holds ⟨target⟩ then .notDirectory else .noEntry)))
      finish 1
    else each (source :: others).reverse fun source => do
      let files := (← get).files
      let place := destination files source target
      let refuse (text : Bytes) : Eval Bool := do
        complainOf tool text
        return false
      match files.resolve ⟨source⟩ with
      | .error fault =>
        refuse (ascii "cannot stat " ++ wordQuoted source ++ ascii (": " ++ reason fault))
      | .ok old =>
        if !deep && files.get? old = some .directory then
          refuse (ascii "-r not specified; omitting directory " ++ wordQuoted source)
        else if isMove && files.get? old = some .directory && isInside files old place then
          refuse (ascii "cannot move " ++ wordQuoted source ++
            ascii " to a subdirectory of itself, " ++ wordQuoted place)
        else if files.get? old = some .directory && files.isFile ⟨place⟩ then
          refuse (ascii "cannot overwrite non-directory " ++ wordQuoted place ++
            ascii " with directory " ++ wordQuoted source)
        else if (files.resolve ⟨place⟩).toOption = some old then
          refuse (wordQuoted source ++ ascii " and " ++ wordQuoted place ++
            ascii " are the same file")
        else match ← change (carry isMove source place) with
          | none =>
            if given.has 'v' then
              emit (ascii (if isMove then "renamed " else "") ++ wordQuoted source ++
                ascii " -> " ++ wordQuoted place ++ [0x0a])
            return true
          | some fault =>
            if isMove then
              refuse (ascii "cannot move " ++ wordQuoted source ++ ascii " to " ++
                wordQuoted place ++ ascii (": " ++ reason fault))
            else
              let shown := if fault = .isDirectory then SystemFault.notDirectory else fault
              refuse (ascii "cannot create regular file " ++ wordQuoted place ++
                ascii (": " ++ reason shown))

/-- The names in a directory that are to be listed. -/
def listed (given : Given) (machine : Machine) (location : Location) : List Bytes :=
  let names := machine.names location
  let dots := if given.has 'a' then [[Path.dot], [Path.dot, Path.dot]] else []
  let names := if given.has 'a' || given.has 'A' then names
    else names.filter fun name => name.head? ≠ some Path.dot
  let names := inOrder (dots ++ names)
  if given.has 'r' then names.reverse else names

/-- A name in a list, marked if it is that of a directory. -/
def listedName (given : Given) (machine : Machine) (location : Location) (name : Bytes) : Bytes :=
  let isDirectory := machine.files.get? location = some .directory
  let mark := if (given.has 'F' || given.has 'p') && isDirectory then [Path.slash] else []
  name ++ mark ++ [0x0a]

/-- Writes what is in a directory, and in those below it if asked for.  The bound is the number of
entries. -/
def listDirectory (given : Given) (titled : Bool) : (bound : Nat) → (path : Bytes) →
    (here : Location) → (first : Bool) → Eval Unit
  | 0, _, _, _ => pure ()
  | bound + 1, path, here, first => do
    let machine ← get
    if titled then emit ((if first then [] else [0x0a]) ++ path ++ ascii ":\n")
    let names := listed given machine here
    names.forM fun name => emit (listedName given machine (here ++ [name]) name)
    if given.has 'R' then
      (names.filter fun name => machine.files.get? (here ++ [name]) =
        some .directory).forM fun name =>
        listDirectory given true bound (path ++ Path.slash :: name) (here ++ [name]) false

/-- Writes names of files, and what is in directories. -/
def ls : Utility := withGiven "ls" 2 (flagsOnly "1aAdFprRlhtSnogisCxfqQbBkmuvUXZ") fun given => do
  let operands := if given.operands = [] then [[Path.dot]] else inOrder given.operands
  let machine ← get
  let found ← operands.mapM fun path => do
    match machine.files.resolve ⟨path⟩ with
    | .ok location => return some (path, location)
    | .error fault =>
      complainOf "ls" (ascii "cannot access " ++ wordQuoted path ++ ascii (": " ++ reason fault))
      return none
  let found := found.filterMap id
  let isDirectory (item : Bytes × Location) : Bool :=
    !given.has 'd' && machine.files.get? item.2 = some .directory
  let plain := found.filter fun item => !isDirectory item
  let directories := found.filter isDirectory
  plain.forM fun (path, location) => emit (listedName given machine location path)
  let titled := 1 < operands.length || given.has 'R'
  directories.zipIdx.forM fun ((path, location), index) =>
    listDirectory given titled (machine.files.entries.length + 1) path location
      (index = 0 && plain = [])
  finish (if found.length = operands.length then 0 else 2)

/-- Writes the last component of a path, without an ending. -/
def basename : Utility := withGiven "basename" 1
    ⟨"az", "s", [("suffix", 's'), ("multiple", 'a')]⟩ fun given => do
  let nameOf (path ending : Bytes) : Bytes :=
    let trimmed := (path.reverse.dropWhile (· = Path.slash)).reverse
    let name := if path ≠ [] && trimmed = [] then [Path.slash]
      else (trimmed.reverse.takeWhile (· ≠ Path.slash)).reverse
    let isCut := ending ≠ [] && ending.isSuffixOf name && ending ≠ name
    if isCut then name.take (name.length - ending.length) else name
  finish 0
  match given.operands with
  | [] => misuse "basename" 1 (ascii "missing operand")
  | path :: others =>
    if given.has 'a' || given.has 's' then
      (path :: others).forM fun path => emit (nameOf path ((given.value? 's').getD []) ++ [0x0a])
    else match others with
      | _ :: extra :: _ => misuse "basename" 1 (ascii "extra operand " ++ wordQuoted extra)
      | _ => emit (nameOf path (others.headD []) ++ [0x0a])

/-- Writes paths without their last components. -/
def dirname : Utility := withGiven "dirname" 1 (flagsOnly "z") fun given => do
  if given.operands = [] then misuse "dirname" 1 (ascii "missing operand")
  else
    given.operands.forM fun path =>
      let isSlash (b : UInt8) : Bool := b = Path.slash
      let head := ((path.reverse.dropWhile isSlash).dropWhile fun b => !isSlash b).dropWhile isSlash
      let parent := if head ≠ [] then head.reverse
        else if path.head?.any isSlash then [Path.slash]
        else [Path.dot]
      emit (parent ++ [0x0a])
    finish 0

/-- Writes the input to the output and to files. -/
def tee : Utility := withGiven "tee" 1 ⟨"ai", "", [("append", 'a')]⟩ fun given => do
  let input ← readAll
  emit input
  each given.operands fun path => do
    let before := match (← get).files.read ⟨path⟩ with
      | .ok content => if given.has 'a' then content else []
      | .error _ => []
    match ← change fun files => files.write ⟨path⟩ (before ++ input) with
    | none => return true
    | some fault =>
      complainOf "tee" (plainly path fault)
      return false

/-- Compares two files octet by octet. -/
def cmp : Utility := withGiven "cmp" 2 (flagsOnly "s") fun given => do
  match given.operands with
  | [] => misuse "cmp" 2 (ascii "missing operand after 'cmp'")
  | first :: others =>
    let second := others.headD [0x2d]
    match ← content? first, ← content? second with
    | .ok a, .ok b =>
      let same := ((a.zip b).takeWhile fun (x, y) => x = y).length
      let lines := (a.take same).count 0x0a
      if a = b then finish 0
      else
        finish 1
        if given.has 's' then pure ()
        else if same = min a.length b.length then
          let (shorter, octets) := if a.length < b.length then (first, a) else (second, b)
          let place := if octets = [] then " which is empty"
            else if octets.getLast? = some 0x0a then s!" after byte {same}, line {lines}"
            else s!" after byte {same}, in line {lines + 1}"
          complain (ascii "cmp: EOF on " ++ shorter ++ ascii place)
        else
          emit (first ++ ascii " " ++ second ++
            ascii s!" differ: char {same + 1}, line {lines + 1}\n")
    | .error fault, _ =>
      complainOf "cmp" (barely first fault)
      finish 2
    | _, .error fault =>
      complainOf "cmp" (barely second fault)
      finish 2

/-- Accepts files that are there. -/
def chmod : Utility := fun args =>
  match args.filter fun arg => arg.head? ≠ some 0x2d with
  | [] => misuse "chmod" 1 (ascii "missing operand")
  | mode :: paths =>
    if paths = [] then misuse "chmod" 1 (ascii "missing operand after " ++ wordQuoted mode)
    else each paths fun path => do
      match (← get).files.resolve ⟨path⟩ with
      | .ok _ => return true
      | .error fault =>
        complainOf "chmod" (ascii "cannot access " ++ wordQuoted path ++
          ascii (": " ++ reason fault))
        return false

end EngineFuzz.Shell.Tool
