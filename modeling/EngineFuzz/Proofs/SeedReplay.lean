import EngineFuzz.Command.Line
import EngineFuzz.Proofs.ProgramWriting
import EngineFuzz.Proofs.RewordedFiles
import EngineFuzz.Proofs.SeedLine
/-!
# Doing a session again from its seed

A seed is given with the command or set by the configuration, and nothing but the seed depends
on where it comes from.  So a program that was written for a seed given with the command is
written again, octet by octet, if a line that sets the seed is put in front of the configuration
instead; and if both are there, the command decides.  Only the text of the configuration is
different in the end.

That holds for the lesser half of all seeds.  The command takes every number of 64 bits, but the
numbers of a configuration have a sign: with a line for a greater seed the configuration is no
document any more, and nothing is written.

* `CommandLine.read_synthesisWords` — every seed can be given with the command;
* `LoadedConfig.exists_writeProgram_rewords` — writing a program, when one file has another text;
* `seed_line_replays` — the two ways to give a seed;
* `greater_seed_not_replayed` — a seed that only the command takes.
-/

namespace EngineFuzz

open Randomness

namespace CommandLine

open Reading
open Text (Bytes bytesOf)

section Words

/-- The octet of a digit. -/
theorem utf8EncodeChar_of_isDigit {c : Char} (h : c.isDigit = true) :
    String.utf8EncodeChar c = [c.toNat.toUInt8] ∧ 48 ≤ c.toNat ∧ c.toNat ≤ 57 := by
  have hbounds : 48 ≤ c.toNat ∧ c.toNat ≤ 57 := by
    simpa [Char.isDigit, Char.le_def, UInt32.le_iff_toNat_le] using h
  exact ⟨Text.utf8EncodeChar_of_lt (Nat.lt_of_le_of_lt hbounds.2 (by decide)), hbounds⟩

/-- The octets of a number are those of its digits. -/
theorem bytesOf_toString (n : Nat) :
    bytesOf (toString n) = (Nat.toDigits 10 n).map (·.toNat.toUInt8) := by
  have hdigits : toString n = String.ofList (Nat.toDigits 10 n) := by
    rw [← String.toList_inj, String.toList_ofList]
    exact Nat.toList_repr
  rw [hdigits, Text.bytesOf_ofList, List.map_eq_flatMap]
  refine List.flatMap_congr fun c hc => ?_
  exact (utf8EncodeChar_of_isDigit (Nat.isDigit_of_mem_toDigits (by decide) (by decide) hc)).1

/-- **A seed in decimal** is read as that seed, however great it is. -/
theorem number?_bytesOf_toString (seed : UInt64) :
    number? (bytesOf (toString seed.toNat)) = some seed := by
  have hdigit : ∀ c ∈ Nat.toDigits 10 seed.toNat, 48 ≤ c.toNat ∧ c.toNat ≤ 57 := fun c hc =>
    (utf8EncodeChar_of_isDigit (Nat.isDigit_of_mem_toDigits (by decide) (by decide) hc)).2
  have hoctet : ∀ c ∈ Nat.toDigits 10 seed.toNat, c.toNat.toUInt8.toNat = c.toNat := fun c hc =>
    Nat.mod_eq_of_lt (Nat.lt_of_le_of_lt (hdigit c hc).2 (by decide))
  have hnumber : (bytesOf (toString seed.toNat)).foldl (fun n b => 10 * n + (b.toNat - 48)) 0 =
      seed.toNat := by
    rw [bytesOf_toString, List.foldl_map]
    refine Eq.trans (List.foldl_ext _ _ 0 fun n c hc => ?_) Nat.ofDigitChars_ten_toDigits
    rw [hoctet c hc]
    rfl
  have hall : (bytesOf (toString seed.toNat)).all (fun b => 0x30 ≤ b && b ≤ 0x39) = true := by
    rw [bytesOf_toString, List.all_map, List.all_eq_true]
    intro c hc
    simp only [Function.comp_apply, Bool.and_eq_true, decide_eq_true_eq, UInt8.le_iff_toNat_le,
      hoctet c hc]
    exact hdigit c hc
  have hne : bytesOf (toString seed.toNat) ≠ [] := by
    rw [bytesOf_toString]
    exact fun h => Nat.toDigits_ne_nil (List.map_eq_nil_iff.mp h)
  have hhead : (bytesOf (toString seed.toNat)).head? ≠ some 0x2b := fun h =>
    absurd (List.all_eq_true.mp hall _ (List.mem_of_head? h)) (by decide)
  have hsize : seed.toNat < UInt64.size := seed.toNat_lt
  simp only [number?, if_neg hhead, hnumber, hall, hne, ne_eq, not_false_eq_true,
    decide_true, Bool.and_true, hsize, if_true]
  exact congrArg some UInt64.ofNat_toNat

/-- The words that give a seed, in decimal. -/
def seedWords : Option UInt64 → List Bytes
  | some seed => [bytesOf "--seed", bytesOf (toString seed.toNat)]
  | none => []

/-- The words that ask for a program, and for running it too.  The path of the configuration
stands behind two hyphens, where it is a path whatever it begins with. -/
def synthesisWords (seed : Option UInt64) (running force : Bool) (config : Path) : List Bytes :=
  ((if running then ["run", "--generate"] else ["generate"])
      ++ (if force then ["--force"] else [])).map bytesOf
    ++ (seedWords seed ++ [bytesOf "--", config.bytes])

/-- The command that these words ask for. -/
def synthesis (running force : Bool) (config : Path) : Command :=
  if running then .run config true force else .generate config force

/-- Where reading has come to behind the seed. -/
private def chosen (running force : Bool) (values : List (String × Bytes)) : Reading :=
  let flags := (if running then ["generate"] else []) ++ (if force then ["force"] else [])
  ⟨.inner (if running then .run else .generate), .none, ⟨flags, values, []⟩, none, false⟩

/-- A number is a value, not an option. -/
theorem head?_ne_hyphen {word : Bytes} {n : UInt64} (h : number? word = some n) :
    word.head? ≠ some hyphen := by
  intro hhead
  cases word with
  | nil => cases hhead
  | cons first rest =>
    obtain rfl := Option.some.inj hhead
    simp [number?, hyphen] at h

/-- The words for a seed are taken as its value. -/
theorem foldlM_seedWords (seed : Option UInt64) (running force : Bool) :
    ∃ values,
      (seedWords seed).foldlM step (chosen running force []) =
        .ok (chosen running force values) ∧
      (chosen running force values).seed = seed := by
  cases seed with
  | none => exact ⟨[], rfl, rfl⟩
  | some seed =>
    have hnumber := number?_bytesOf_toString seed
    have hhead := head?_ne_hyphen hnumber
    rw [seedWords]
    generalize bytesOf (toString seed.toNat) = word at hnumber hhead
    have hpending : step (chosen running force []) (bytesOf "--seed") =
        .ok { chosen running force [] with pending := some (seedSetting, []) } := by
      cases running <;> cases force <;> decide +kernel
    have hvalue : step { chosen running force [] with pending := some (seedSetting, []) } word =
        .ok (chosen running force [("seed", word)]) := by
      simp [step, chosen, hhead, takeValue, giveValues, seedSetting, Kind.accepts, hnumber,
        Given.valuesOf]
    refine ⟨[("seed", word)], ?_, hnumber⟩
    rw [List.foldlM_cons, hpending]
    exact (congrArg (· >>= pure) hvalue).trans (bind_pure _)

/-- **A command that synthesizes**, as it is typed: every seed can be given with it, and every
path. -/
theorem read_synthesisWords (seed : Option UInt64) (running force : Bool) {config : Path}
    (hne : config.bytes ≠ []) :
    CommandLine.read (synthesisWords seed running force config) =
      .execute seed (synthesis running force config) := by
  have hchosen : (((if running then ["run", "--generate"] else ["generate"])
      ++ (if force then ["--force"] else [])).map bytesOf).foldlM step begin =
      .ok (chosen running force []) := by
    cases running <;> cases force <;> decide +kernel
  obtain ⟨values, hvalues, hseed⟩ := foldlM_seedWords seed running force
  have hplain : step (chosen running force values) (bytesOf "--") =
      .ok { chosen running force values with plain := true } := by
    have hhyphens : bytesOf "--" = [hyphen, hyphen] := by decide +kernel
    simp [step, hhyphens, chosen]
  let done : Reading :=
    { chosen running force values with given.words := [config.bytes], plain := true }
  have hpath : step { chosen running force values with plain := true } config.bytes = .ok done := by
    cases running <;> simp [step, done, chosen, takePlain, Level.words, Kind.accepts, hne]
  have hwords : (synthesisWords seed running force config).foldlM step begin = .ok done := by
    rw [synthesisWords, List.foldlM_append, hchosen]
    refine (List.foldlM_append ..).trans ?_
    rw [hvalues]
    change [bytesOf "--", config.bytes].foldlM step (chosen running force values) = _
    rw [List.foldlM_cons, hplain]
    exact (congrArg (· >>= pure) hpath).trans (bind_pure _)
  have hcommand : finish done = .execute done.seed (synthesis running force config) := by
    cases running <;> cases force <;> rfl
  rw [CommandLine.read, hwords]
  exact hcommand.trans (congrArg (Request.execute · _) hseed)

/-- What is typed is done. -/
theorem execute_synthesisWords (engines : Engines) (seed : Option UInt64) (running force : Bool)
    {config : Path} (hne : config.bytes ≠ []) (session : Session) :
    CommandLine.execute engines (synthesisWords seed running force config) session =
      (synthesis running force config).execute engines seed session := by
  rw [CommandLine.execute, read_synthesisWords seed running force hne]

end Words

end CommandLine

section Programs

variable {loaded loaded' : LoadedConfig} {session : Session} {other : FileTree} {place : Location}

/-- **Writing a program** comes to the same if one file has another text, whatever seed a
configuration sets. -/
theorem LoadedConfig.exists_writeProgram_rewords (force : Bool)
    (h : session.files.Rewords other place) (hpath : loaded'.programPath = loaded.programPath)
    (hshape : loaded'.config.shape = loaded.config.shape) :
    ∃ files, (loaded.writeProgram force session).2.files.Rewords files place ∧
      loaded'.writeProgram force { session with files := other } =
        ((loaded.writeProgram force session).1,
          { (loaded.writeProgram force session).2 with files }) := by
  rw [writeProgram_eq loaded, writeProgram_eq loaded', hpath, hshape]
  dsimp only
  rw [h.holds_eq]
  split
  · exact ⟨other, h, rfl⟩
  cases (Program.synthesize .standard loaded.config.shape).run session.random with
  | mk synthesized random =>
    cases synthesized with
    | error overload => exact ⟨other, h, rfl⟩
    | ok program =>
      obtain ⟨hmade, hsame⟩ := h.makeParent loaded.programPath
      cases hparent : session.files.makeParent loaded.programPath with
      | mk files made =>
        cases hparent' : other.makeParent loaded.programPath with
        | mk files' made' =>
          rw [hparent, hparent'] at hmade hsame
          obtain rfl : made' = made := hsame
          cases made' with
          | error fault => exact ⟨files', hmade, rfl⟩
          | ok _ =>
            rcases hmade.write loaded.programPath (Text.bytesOf program.source) with
              ⟨fault, hwrite, hwrite'⟩ | ⟨written, written', hwrite, hwrite', hwritten⟩
            · simp only [hwrite, hwrite']
              exact ⟨files', hmade, rfl⟩
            · simp only [hwrite, hwrite']
              exact ⟨written', hwritten, rfl⟩

end Programs

namespace Command

section Replaying

variable {config : Path} {session : Session} {parsed parsed' : Config} {other : FileTree}
  {place : Location}

/-- The command that writes a program comes to the same from two configurations that differ in
the seed alone, if the seed that prevails is the same. -/
theorem exists_performGenerate_rewords {seed flag : Option UInt64} {given : UInt64} (force : Bool)
    (h : Configures session.files config parsed) (h' : Configures other config parsed')
    (hseed : seed.or parsed.seed = some given) (hflag : flag.or parsed'.seed = some given)
    (hpath : parsed'.programPath = parsed.programPath) (hshape : parsed'.shape = parsed.shape)
    (hrewords : session.files.Rewords other place) :
    ∃ files, (performGenerate seed config force session).2.files.Rewords files place ∧
      performGenerate flag config force { session with files := other } =
        ((performGenerate seed config force session).1,
          { (performGenerate seed config force session).2 with files }) := by
  have hbegin : beginWith (seed.or parsed.seed) session =
      (.ok (), { session with random := .ofSeed given }) := by
    rw [hseed]
    rfl
  have hbegin' : beginWith (flag.or parsed'.seed) { session with files := other } =
      (.ok (), { session with files := other, random := .ofSeed given }) := by
    rw [hflag]
    rfl
  obtain ⟨hgenerated, -⟩ := written_of_begun force h hbegin
  obtain ⟨hgenerated', -⟩ := written_of_begun force h' hbegin'
  have hpath' : LoadedConfig.programPath ⟨config, parsed'⟩ =
      LoadedConfig.programPath ⟨config, parsed⟩ := by
    simp only [LoadedConfig.programPath, Config.programPathBeside, Config.programPathIn, hpath]
  have hbegun : { session with random := .ofSeed given }.files.Rewords other place := hrewords
  obtain ⟨files, hfiles, hwritten⟩ :=
    LoadedConfig.exists_writeProgram_rewords force hbegun hpath' hshape
  rw [hwritten] at hgenerated'
  rw [hgenerated, hgenerated']
  refine ⟨files, ?_⟩
  cases hresult : LoadedConfig.writeProgram ⟨config, parsed⟩ force
      { session with random := .ofSeed given } with
  | mk result after =>
    rw [hresult] at hfiles
    cases result with
    | error error => exact ⟨hfiles, rfl⟩
    | ok path => exact ⟨hfiles, rfl⟩

/-- What a command came to, and what it comes to again: the same code and the same output, and
the same files but for the text of one of them. -/
def ComesAgain (place : Location) (first again : UInt8 × Session) : Prop :=
  ∃ files, again = (first.1, { first.2 with files }) ∧ first.2.files.Rewords files place

/-- A command whose work comes to the same prints the same and ends with the same code. -/
theorem comesAgain_of_perform {engines : Engines} {seed flag : Option UInt64} {command : Command}
    {again : Session} {files : FileTree}
    (hfiles : (command.perform engines seed session).2.files.Rewords files place)
    (h : command.perform engines flag again =
      ((command.perform engines seed session).1,
        { (command.perform engines seed session).2 with files })) :
    ComesAgain place (execute engines seed command session)
      (execute engines flag command again) := by
  refine ⟨files, ?_, files_execute ▸ hfiles⟩
  rw [execute, execute, h]
  cases command.perform engines seed session with
  | mk result after => cases result <;> rfl

/-- Without a configuration nothing is written, whatever seed is given with the command. -/
theorem refuses_of_parse_error (engines : Engines) (flag : Option UInt64) (force : Bool)
    {text : String} {fault : ConfigFault} (hread : session.files.readText config = .ok text)
    (hparse : Config.parse text = .error fault) :
    let refused := execute engines flag (.generate config force) session
    let found := findProgram flag config true force session
    refused.1 = 1 ∧ refused.2.files = session.files ∧ found.2.files = session.files ∧
      ∀ pair, found.1 ≠ .ok pair := by
  intro refused found
  have hload := LoadedConfig.load_of_parse_error hread hparse
  have hgenerated : performGenerate flag config force session = _ := Action.bind_of_error hload
  have hfound : findProgram flag config true force session = _ := Action.bind_of_error hload
  simp only [refused, found, execute, perform, hgenerated, hfound, exitCode, true_and]
  intro pair hpair
  cases hpair

/-- **A seed in front of a configuration does what the same seed does with the command.**  Let a
configuration be accepted that sets no seed, and let a line that sets one be put in front of it.
If the seed that prevails is the one that was given with the command before, everything comes to
the same: the code, the output and the files, but for the text of the configuration itself.  If
the program is written, it is the one of the shape and the seed, with the line as without it,
and running it goes on from the same files.  But a line for a seed that a number with a sign
cannot hold makes the configuration unreadable: then nothing is written, and nothing can be run.
-/
theorem seed_line_replays (engines : Engines) (flag : Option UInt64) (seed line : UInt64)
    (config : Path) (force : Bool) (session : Session) (text : String) (parsed : Config)
    (hread : session.files.readText config = .ok text) (hparse : Config.parse text = .ok parsed)
    (hnone : parsed.seed = none) (hflag : flag.or (some line) = some seed) :
    ∃ place files, session.files.resolve config = .ok place ∧ session.files.Rewords files place ∧
      session.files.write config (Text.bytesOf (Config.withSeedLine text line)) = .ok files ∧
      (∀ given, CommandLine.read (CommandLine.synthesisWords given true force config) =
        .execute given (.run config true force)) ∧
      let program := parsed.programPathBeside config
      let first := CommandLine.execute engines
        (CommandLine.synthesisWords (some seed) false force config) session
      let again := CommandLine.execute engines
        (CommandLine.synthesisWords flag false force config) { session with files }
      let found := findProgram (some seed) config true force session
      let foundAgain := findProgram flag config true force { session with files }
      (line.toNat < 2 ^ 63 → ComesAgain place first again ∧
        (found.2.files = first.2.files ∧ ((∃ pair, found.1 = .ok pair) ↔ first.1 = 0)) ∧
        (foundAgain.2.files = again.2.files ∧ ((∃ pair, foundAgain.1 = .ok pair) ↔ again.1 = 0)) ∧
        (first.1 = 0 → ∃ synthesized,
          ((Program.synthesize .standard parsed.shape).run (.ofSeed seed)).1 = .ok synthesized ∧
          first.2.files.read program = .ok (Text.bytesOf synthesized.source) ∧
          again.2.files.read program = .ok (Text.bytesOf synthesized.source))) ∧
      (2 ^ 63 ≤ line.toNat → again.1 = 1 ∧ again.2.files = files ∧ foundAgain.2.files = files ∧
        ∀ pair, foundAgain.1 ≠ .ok pair) := by
  obtain ⟨content, hcontent, -⟩ := FileTree.exists_read_of_readText hread
  obtain ⟨directory, name, hleads, -⟩ := FileTree.exists_of_read hcontent
  have htyped : ∀ given running start, CommandLine.execute engines
      (CommandLine.synthesisWords given running force config) start = _ :=
        fun given running start =>
    CommandLine.execute_synthesisWords engines given running force hleads.bytes_ne_nil start
  obtain ⟨place, files, hwrite, hresolve, hrewords, hnew⟩ :=
    FileTree.exists_rewords_of_read hcontent (Text.bytesOf (Config.withSeedLine text line))
  have htext : files.readText config = .ok (Config.withSeedLine text line) :=
    FileTree.readText_of_read hnew
  refine ⟨place, files, hresolve, hrewords, hwrite,
    fun given => CommandLine.read_synthesisWords given true force hleads.bytes_ne_nil, ?_⟩
  rw [htyped, htyped]
  intro program first again found foundAgain
  refine ⟨fun hline => ?_, fun hline => ?_⟩
  · have hconfigures : Configures session.files config parsed := ⟨text, hread, hparse⟩
    have hconfigures' : Configures files config { parsed with seed := some line } :=
      ⟨_, htext, Config.parse_withSeedLine hparse hnone hline⟩
    have hgiven : (some seed).or parsed.seed = some seed := rfl
    obtain ⟨after, hafter, hperform⟩ :=
      exists_performGenerate_rewords force hconfigures hconfigures'
      hgiven hflag rfl rfl hrewords
    have hagain : ComesAgain place (execute engines (some seed) (.generate config force) session)
        (execute engines flag (.generate config force) { session with files }) :=
      comesAgain_of_perform hafter hperform
    obtain ⟨hfound, hok, -⟩ := findProgram_alike engines (some seed) config force session
    obtain ⟨hfound', hok', -⟩ := findProgram_alike engines flag config force { session with files }
    refine ⟨hagain, ⟨hfound, hok⟩, ⟨hfound', hok'⟩, fun hzero => ?_⟩
    obtain ⟨left, hleft, -⟩ := hagain
    have hzero' : again.1 = 0 := (congrArg Prod.fst hleft).trans hzero
    obtain ⟨fixed, synthesized, hfixed, hsynthesized, hsupplies⟩ :=
      supplies_of_performGenerate hconfigures (execute_eq_zero_iff.mp hzero)
    obtain ⟨fixed', synthesized', hfixed', hsynthesized', hsupplies'⟩ :=
      supplies_of_performGenerate hconfigures' (execute_eq_zero_iff.mp hzero')
    obtain rfl := hfixed seed rfl
    obtain rfl := hfixed' fixed hflag
    obtain rfl := Except.ok.inj (hsynthesized.symm.trans hsynthesized')
    have hfirst : first.2.files = _ := files_execute
    have hlast : again.2.files = _ := files_execute
    rw [hfirst, hlast]
    exact ⟨synthesized, hsynthesized, hsupplies.read, hsupplies'.read⟩
  · obtain ⟨offset, herror⟩ := Config.exists_parse_withSeedLine_eq_error text hline
    exact refuses_of_parse_error engines flag force htext herror

/-- A session before anything is done, with a configuration file. -/
private def startedWith (text : String) : Session :=
  .begin ((FileTree.ofBase [Text.bytesOf "w"]).insert [Text.bytesOf "w", Text.bytesOf "c.toml"]
    (.file (Text.bytesOf text))) (.listed []) (.listed [])

/-- A seed given with the command and the same seed in the configuration. -/
theorem seed_line_replays_seven :
    let text := "program_path = 'p.js'"
    let session := startedWith text
    let config := Path.ofString "c.toml"
    ∃ place files,
      session.files.write config (Text.bytesOf (Config.withSeedLine text 7)) = .ok files ∧
      ComesAgain place
        (CommandLine.execute (fun _ _ => .error .noEntry)
          (CommandLine.synthesisWords (some 7) false false config) session)
        (CommandLine.execute (fun _ _ => .error .noEntry)
          (CommandLine.synthesisWords none false false config) { session with files }) := by
  intro text session config
  obtain ⟨place, files, -, -, hwrite, -, hreplays, -⟩ :=
    seed_line_replays (fun _ _ => .error .noEntry) none 7 7 config false session text
    ⟨.ofString "p.js", none, Config.defaultShape, .randomized, Config.defaultEngine⟩
    (by decide +kernel) (by decide +kernel) rfl rfl
  exact ⟨place, files, hwrite, (hreplays (by decide)).1⟩

/-- The least seed that no configuration can set: given with the command it is taken, and in
front of the configuration it is not; nor is it in any other place. -/
theorem greater_seed_not_replayed :
    let text := "program_path = 'p.js'\n[generator]\nblocks = [0, 0]"
    let session := startedWith text
    let config := Path.ofString "c.toml"
    let seed : UInt64 := 9223372036854775808
    (∃ files,
      session.files.write config (Text.bytesOf (Config.withSeedLine text seed)) = .ok files ∧
      (CommandLine.execute (fun _ _ => .error .noEntry)
        (CommandLine.synthesisWords (some seed) false false config) session).1 = 0 ∧
      (CommandLine.execute (fun _ _ => .error .noEntry)
        (CommandLine.synthesisWords none false false config) { session with files }).1 = 1) ∧
    ∀ other parsed, Config.parse other = .ok parsed → parsed.seed ≠ some seed := by
  intro text session config seed
  let program := Path.ofString "p.js"
  let parsed : Config :=
    ⟨program, none, { Config.defaultShape with blocks := .empty }, .randomized,
      Config.defaultEngine⟩
  have hread : session.files.readText config = .ok text := by decide +kernel
  have hconfigures : Configures session.files config parsed := ⟨text, hread, by decide +kernel⟩
  obtain ⟨content, hcontent, -⟩ := FileTree.exists_read_of_readText hread
  obtain ⟨place, files, hwrite, -, -, hnew⟩ :=
    FileTree.exists_rewords_of_read hcontent (Text.bytesOf (Config.withSeedLine text seed))
  have hseed : 2 ^ 63 ≤ seed.toNat := by decide
  have htext : ({ session with files } : Session).files.readText config =
      .ok (Config.withSeedLine text seed) := FileTree.readText_of_read hnew
  obtain ⟨offset, herror⟩ := Config.exists_parse_withSeedLine_eq_error text hseed
  obtain ⟨hrefused, -⟩ :=
    refuses_of_parse_error (fun _ _ => .error .noEntry) none false htext herror
  have hbeside : parsed.programPathBeside config = program := by decide +kernel
  have hholds : session.files.holds program = false := by decide +kernel
  have hmade : session.files.makeParent program = (session.files, .ok ()) := by decide +kernel
  have hplaced : ∀ content, session.files.write program content =
      .ok (session.files.insert [Text.bytesOf "w", Text.bytesOf "p.js"] (.file content)) :=
        fun _ => rfl
  obtain ⟨hcode, -⟩ := execute_generate_of_no_blocks (fun _ _ => .error .noEntry)
      (some seed) hconfigures
    hbeside rfl hholds hmade (hplaced _)
  have htyped : ∀ given start, CommandLine.execute (fun _ _ => .error .noEntry)
      (CommandLine.synthesisWords given false false config) start = _ := fun given start =>
    CommandLine.execute_synthesisWords _ given false false (by decide +kernel) start
  rw [htyped]
  refine ⟨⟨files, hwrite, hcode, (congrArg Prod.fst (htyped none _)).trans hrefused⟩,
    fun other found hfound hset => ?_⟩
  exact absurd (Config.seed_lt_of_parse hfound hset) (Nat.not_lt.mpr hseed)

end Replaying

end Command

end EngineFuzz
