import EngineFuzz.Command
/-!
# Command lines

A command line is read word by word.  A word that begins with a hyphen gives *flags*, which
stand for themselves, or a *setting*, which is followed by values; two hyphens alone make all
further words plain, and after them no work can be chosen.  The first plain word chooses the
work, and the plain words after it are what the work is done on.  The seed may be set, and the
flag for more detail given, before or after that word; what stands after it prevails.

Reading is a fold: `Reading.step` takes one word, and `Reading.finish` says what the words came to.
-/

namespace EngineFuzz.CommandLine

open Text (Bytes)

/-- What a command line asks for. -/
inductive Request where
  | execute (seed : Option UInt64) (command : Command)
  | version
  | help
  /-- It makes no sense. -/
  | misuse
deriving DecidableEq, Repr

/-- The kinds of work. -/
inductive Work where
  | generate
  | instrument
  | inputs
  | probe
  | run
deriving DecidableEq, Repr

/-- The words that choose the work. -/
def workNames : List (String × Work) :=
  [("generate", .generate), ("instrument", .instrument), ("inputs", .inputs), ("probe", .probe),
    ("run", .run)]

/-- The work that a word chooses. -/
def work? (word : Bytes) : Option Work :=
  (workNames.find? fun (name, _) => Text.bytesOf name = word).map (·.2)

/-- What a value or a plain word has to be. -/
inductive Kind where
  /-- A number of 64 bits without a sign. -/
  | number
  /-- Text. -/
  | text
  /-- A path, which is not empty. -/
  | path
deriving DecidableEq, Repr

/-- The number that octets stand for: digits, perhaps behind a plus sign. -/
def number? (word : Bytes) : Option UInt64 :=
  let digits := if word.head? = some 0x2b then word.tail else word
  let n := digits.foldl (fun n b => 10 * n + (b.toNat - 48)) 0
  if digits ≠ [] && digits.all (fun b => 0x30 ≤ b && b ≤ 0x39) && n < UInt64.size then
    some n.toUInt64
  else none

/-- Whether a word is of a kind. -/
def Kind.accepts : Kind → Bytes → Bool
  | .number, word => (number? word).isSome
  | .text, word => (Text.strict word).isSome
  | .path, word => word ≠ []

/-- Something that is followed by values. -/
structure Setting where
  name : String
  kind : Kind
  /-- How many values follow. -/
  count : Nat
  /-- Whether it may be given again, which adds to the values. -/
  repeatable : Bool
deriving DecidableEq, Repr

/-- The flag that stands before and after the choice of work. -/
def verboseFlag : String := "verbose"

/-- The setting that stands before and after the choice of work. -/
def seedSetting : Setting := ⟨"seed", .number, 1, false⟩

/-- The settings of a probe. -/
def engineSetting : Setting := ⟨"engine", .text, 1, false⟩
/-- The settings of a probe that say how many literals a statement has. -/
def literalsSetting : Setting := ⟨"literals", .number, 2, true⟩

/-- Where reading has come to. -/
inductive Level where
  /-- Before the choice of work. -/
  | outer
  /-- After the word that asks for help, and perhaps after what it is about. -/
  | help (named : Bool)
  /-- After the choice of work. -/
  | inner (work : Work)
deriving DecidableEq, Repr

namespace Level

/-- The flags at a level. -/
def flags : Level → List String
  | .inner .generate => [verboseFlag, "force"]
  | .inner .inputs => [verboseFlag, "fixed"]
  | .inner .run => [verboseFlag, "generate", "force"]
  | _ => [verboseFlag]

/-- The settings at a level. -/
def settings : Level → List Setting
  | .inner .probe => [seedSetting, engineSetting, literalsSetting]
  | _ => [seedSetting]

/-- What the plain words at a level have to be. -/
def words : Level → List Kind
  | .inner .probe => [.number]
  | .inner _ => [.path]
  | _ => []

end Level

/-- What has been given at a level. -/
structure Given where
  flags : List String
  values : List (String × Bytes)
  words : List Bytes
deriving DecidableEq, Repr

namespace Given

/-- Nothing. -/
def none : Given := ⟨[], [], []⟩

/-- The values of a setting. -/
def valuesOf (given : Given) (setting : Setting) : List Bytes :=
  (given.values.filter (·.1 = setting.name)).map (·.2)

end Given

/-- Where reading has come to, and what has been given so far. -/
structure Reading where
  level : Level
  outer : Given
  /-- What has been given at the current level. -/
  given : Given
  /-- The setting whose values are being read, and those read. -/
  pending : Option (Setting × List Bytes)
  /-- Whether all further words are plain. -/
  plain : Bool
deriving DecidableEq, Repr

namespace Reading

/-- The start of a command line. -/
def begin : Reading := ⟨.outer, .none, .none, none, false⟩

/-- Reading goes on, or the request is known before the end. -/
abbrev Result := Except Request Reading

/-- The octet of a hyphen. -/
def hyphen : UInt8 := 0x2d

/-- The octet of an equality sign. -/
def equality : UInt8 := 0x3d

/-- Gives a flag, once. -/
def giveFlag (reading : Reading) (name : String) : Result :=
  if reading.given.flags.contains name then .error .misuse
  else .ok { reading with given.flags := reading.given.flags ++ [name] }

/-- Gives a setting its values, which have to be right in number and kind. -/
def giveValues (reading : Reading) (setting : Setting) (values : List Bytes) : Result :=
  if values.length ≠ setting.count || !values.all setting.kind.accepts then .error .misuse
  else if !setting.repeatable && reading.given.valuesOf setting ≠ [] then .error .misuse
  else
    let named := values.map fun value => (setting.name, value)
    .ok { reading with given.values := reading.given.values ++ named, pending := none }

/-- Takes a further value of the setting whose values are being read. -/
def takeValue (reading : Reading) (setting : Setting) (values : List Bytes)
    (word : Bytes) : Result :=
  let values := values ++ [word]
  if values.length < setting.count then .ok { reading with pending := some (setting, values) }
  else reading.giveValues setting values

/-- Takes a plain word. -/
def takePlain (reading : Reading) (word : Bytes) : Result :=
  match reading.level with
  | .outer =>
    if reading.plain then .error .misuse
    else if word = Text.bytesOf "help" then .ok { reading with level := .help false }
    else match work? word with
      | some work =>
        .ok { reading with level := .inner work, outer := reading.given, given := .none }
      | none => .error .misuse
  | .help named =>
    if !named && ((work? word).isSome || word = Text.bytesOf "help") then
      .ok { reading with level := .help true }
    else .error .misuse
  | .inner _ =>
    match reading.level.words[reading.given.words.length]? with
    | some kind =>
      if kind.accepts word then .ok { reading with given.words := reading.given.words ++ [word] }
      else .error .misuse
    | none => .error .misuse

/-- Takes what stands behind two hyphens: a name, and perhaps a value behind an equality sign. -/
def takeLong (reading : Reading) (body : Bytes) : Result :=
  let name := body.takeWhile (· ≠ equality)
  let attached := (body.dropWhile (· ≠ equality)).tail?
  match reading.level.settings.find? fun setting => Text.bytesOf setting.name = name with
  | some setting =>
    match attached with
    | some value => reading.giveValues setting [value]
    | none => .ok { reading with pending := some (setting, []) }
  | none =>
    if attached.isSome then .error .misuse
    else match reading.level.flags.find? fun flag => Text.bytesOf flag = name with
      | some flag => reading.giveFlag flag
      | none =>
        if name = Text.bytesOf "help" then .error .help
        else if name = Text.bytesOf "version" && reading.level = .outer then .error .version
        else .error .misuse

/-- Takes the letters behind one hyphen. -/
def takeShort (reading : Reading) : (letters : Bytes) → Result
  | [] => .ok reading
  | letter :: letters =>
    if letter = 0x76 then do (← reading.giveFlag verboseFlag).takeShort letters
    else if letter = 0x68 then .error .help
    else if letter = 0x56 && reading.level = .outer then .error .version
    else .error .misuse

/-- Takes one word. -/
def step (reading : Reading) (word : Bytes) : Result :=
  let isHyphened := word.head? = some hyphen && word.length > 1
  if reading.plain || reading.level matches .help _ then reading.takePlain word
  else match reading.pending, isHyphened with
    | some (setting, values), false => reading.takeValue setting values word
    | some _, true => .error .misuse
    | none, false => reading.takePlain word
    | none, true =>
      match word with
      | _ :: second :: rest =>
        if second ≠ hyphen then reading.takeShort (second :: rest)
        else if rest = [] then .ok { reading with plain := true }
        else reading.takeLong rest
      | _ => .error .misuse

/-- The seed that prevails. -/
def seed (reading : Reading) : Option UInt64 :=
  let values := reading.given.valuesOf seedSetting
  let values := if values = [] then reading.outer.valuesOf seedSetting else values
  values.head?.bind number?

/-- The command that has been given, if nothing is missing. -/
def command? (reading : Reading) (work : Work) : Option Command := do
  let given := reading.given
  let word ← given.words.head?
  match work with
  | .generate => return .generate ⟨word⟩ (given.flags.contains "force")
  | .instrument => return .instrument ⟨word⟩
  | .inputs => return .inputs ⟨word⟩ (if given.flags.contains "fixed" then .fixed else .randomized)
  | .probe =>
    let iterations ← number? word
    let engine ← match given.valuesOf engineSetting with
      | [] => some Config.defaultEngine.command
      | value :: _ => Text.strict value
    let literals ← match given.valuesOf literalsSetting with
      | [] => some [1, 19]
      | values => values.mapM number?
    return .probe iterations.toNat engine literals
  | .run => return .run ⟨word⟩ (given.flags.contains "generate") (given.flags.contains "force")

/-- What all the words came to. -/
def finish (reading : Reading) : Request :=
  match reading.pending, reading.level with
  | none, .help _ => .help
  | none, .inner work =>
    match reading.command? work with
    | some command => .execute reading.seed command
    | none => .misuse
  | _, _ => .misuse

end Reading

/-- What the words of a command line ask for. -/
def read (words : List Bytes) : Request :=
  match words.foldlM Reading.step Reading.begin with
  | .ok reading => reading.finish
  | .error request => request

/-- The name of the program and its version. -/
def versionText : String := "graalfuzz 0.1.0"

/-- Does what a command line asks for, and gives the code that the program ends with. -/
def execute (engines : Engines) (words : List Bytes) (session : Session) : UInt8 × Session :=
  match read words with
  | .execute seed command => command.execute engines seed session
  | .version => (0, { session with stdout := session.stdout ++ Text.bytesOf (versionText ++ "\n") })
  | .help => (0, session)
  | .misuse => (2, session)

end EngineFuzz.CommandLine
