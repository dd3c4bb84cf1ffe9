import EngineFuzz.Command
import EngineFuzz.Proofs.HarnessHandles
import EngineFuzz.Proofs.ProgramFiles
/-!
# Running a program cleans up

Running a program goes through stages, and it may end at each of them.  Until the harness is
written no engine is started, and the files are those of the start with a program and
directories, if a program was asked for.  Then an engine is started on the files with the
harness among them.  If it does not start the harness is removed at once, which gives back the
files of before; otherwise it is removed from what the engine leaves, unless the engine has
closed the directory or left no way to it.

* `Provides` — what the files are before a harness is written;
* `finds_findProgram`, `prepares_prepareRun` — the ends of all that comes before the engine;
* `runRecord_of_error`, `runRecord_of_ok` — the ends of the engine;
* `files_discard_of_plants`, `files_discard_of_admits`, `files_discard_of_bars` — the end of the
  harness;
* `Hindrance` — what can be known beforehand to keep a program from being run;
* `run_cleans_up`, `run_leaves_harness` — the ends of running a program, and engines that keep the
  harness from being removed.
-/

namespace EngineFuzz

open Randomness

section Loading

variable {config : Path} {session : Session} {text : String} {parsed : Config}

/-- There is a configuration in a file. -/
def Configures (files : FileTree) (config : Path) (parsed : Config) : Prop :=
  ∃ text, files.readText config = .ok text ∧ Config.parse text = .ok parsed

/-- A configuration that cannot be read is not loaded. -/
theorem LoadedConfig.load_of_readText_error {fault : SystemFault}
    (h : session.files.readText config = .error fault) :
    LoadedConfig.load config session = (.error (.source config fault), session) := by
  exact Action.bind_of_error (Action.readText_of_error h)

/-- A text that is no configuration is not loaded. -/
theorem LoadedConfig.load_of_parse_error {fault : ConfigFault}
    (h : session.files.readText config = .ok text) (hparse : Config.parse text = .error fault) :
    LoadedConfig.load config session = (.error (.config (.rejected config text fault)),
      session) := by
  rw [LoadedConfig.load, Action.bind_of_ok (Action.readText_of_ok h), hparse]
  rfl

/-- A configuration is loaded together with the path of its file. -/
theorem Configures.load (h : Configures session.files config parsed) :
    LoadedConfig.load config session = (.ok ⟨config, parsed⟩, session) := by
  obtain ⟨text, htext, hparse⟩ := h
  rw [LoadedConfig.load, Action.bind_of_ok (Action.readText_of_ok htext), hparse]
  rfl

/-- A configuration is loaded, or nothing happens. -/
theorem LoadedConfig.load_cases (config : Path) (session : Session) :
    (∃ error, LoadedConfig.load config session = (.error error, session)) ∨
      ∃ parsed, Configures session.files config parsed := by
  cases hread : session.files.readText config with
  | error fault => exact Or.inl ⟨_, load_of_readText_error hread⟩
  | ok text =>
    cases hparse : Config.parse text with
    | error fault => exact Or.inl ⟨_, load_of_parse_error hread hparse⟩
    | ok parsed => exact Or.inr ⟨parsed, text, hread, hparse⟩

end Loading

namespace Command

section Preparing

variable {config : Path} {session : Session} {parsed : Config}

/-- Whatever happens at the beginning is that a seed is fixed. -/
theorem exists_beginWith (seed : Option UInt64) (session : Session) :
    ∃ fixed entropy, (∀ given, seed = some given → fixed = given) ∧
      beginWith seed session = (.ok (), { session with random := .ofSeed fixed, entropy }) := by
  cases seed with
  | some given => exact ⟨given, session.entropy, fun _ h => Option.some.inj h, rfl⟩
  | none =>
    refine ⟨(Draw.word64 session.entropy).1, (Draw.word64 session.entropy).2, ?_, rfl⟩
    rintro given ⟨⟩

/-- The files are those of the start, but for a program that is written anew from the seed and
directories above it. -/
def Provides (seed : Option UInt64) (config : Path) (anew : Bool) (start after : FileTree) : Prop :=
  after = start ∨ anew = true ∧ ∃ parsed, Configures start config parsed ∧
    ∃ fixed, (∀ given, seed.or parsed.seed = some given → fixed = given) ∧
      start.Furnishes after (parsed.programPathBeside config) (parsed.shape.Yields (.ofSeed fixed))

/-- What may come of looking for a program: no engine is started, and no file is touched but by
writing the program anew. -/
structure Finds (seed : Option UInt64) (config : Path) (anew : Bool) (session : Session)
    (outcome : Except Error (LoadedConfig × Path) × Session) : Prop where
  launches : outcome.2.launches = session.launches
  files : Provides seed config anew session.files outcome.2.files
  found : ∀ loaded program, outcome.1 = .ok (loaded, program) →
    loaded.file = config ∧ Configures session.files config loaded.config ∧
      program = loaded.programPath

/-- Looking for a program goes on from its configuration. -/
theorem findProgram_of_configures (seed : Option UInt64) (anew force : Bool)
    (h : Configures session.files config parsed) :
    ∃ fixed entropy, (∀ given, seed.or parsed.seed = some given → fixed = given) ∧
      let loaded : LoadedConfig := ⟨config, parsed⟩
      findProgram seed config anew force session = (do
        let program ← loaded.supplyProgram anew force
        if !(← Action.ask fun files => files.isFile program) then
          throw (.invalidCommand (.missingProgram program))
        return (loaded, program) : Action (LoadedConfig × Path))
          { session with random := .ofSeed fixed, entropy } := by
  obtain ⟨fixed, entropy, hfixed, hbegin⟩ := exists_beginWith (seed.or parsed.seed) session
  refine ⟨fixed, entropy, hfixed, ?_⟩
  intro loaded
  rw [findProgram, Action.bind_of_ok h.load]
  exact Action.bind_of_ok hbegin

/-- Unless the program is written anew, all depends on whether it is there. -/
theorem findProgram_of_not_anew (seed : Option UInt64) (force : Bool)
    (h : Configures session.files config parsed) :
    ∃ random entropy,
      let program := parsed.programPathBeside config
      findProgram seed config false force session
        = (if session.files.isFile program then .ok (⟨config, parsed⟩, program)
            else .error (.invalidCommand (.missingProgram program)),
          { session with random, entropy }) := by
  obtain ⟨fixed, entropy, -, hfind⟩ := findProgram_of_configures seed false force h
  refine ⟨.ofSeed fixed, entropy, ?_⟩
  intro program
  let drawn := { session with random := .ofSeed fixed, entropy }
  have hsupply : LoadedConfig.supplyProgram ⟨config, parsed⟩ false force drawn
      = (.ok program, drawn) := rfl
  have hasked : Action.ask (fun files => files.isFile program) drawn
      = (.ok (session.files.isFile program), drawn) := rfl
  refine (hfind.trans (Action.bind_of_ok hsupply)).trans ((Action.bind_of_ok hasked).trans ?_)
  cases session.files.isFile program with
  | true => rfl
  | false => rfl

/-- Supplying a program means to write it anew, or to take what is there. -/
theorem writes_supplyProgram (loaded : LoadedConfig) (anew force : Bool) (session : Session) :
    loaded.Writes session (loaded.supplyProgram anew force session) := by
  cases anew with
  | true => exact loaded.writes_writeProgram force session
  | false => exact ⟨fun _ h => (Except.ok.inj h).symm, rfl, .of_paves (.refl session.files _)⟩

/-- **Looking for a program** starts no engine, and touches no file but by writing the program
anew. -/
theorem finds_findProgram (seed : Option UInt64) (config : Path) (anew force : Bool)
    (session : Session) :
    Finds seed config anew session (findProgram seed config anew force session) := by
  rcases LoadedConfig.load_cases config session with ⟨error, hload⟩ | ⟨parsed, hconfigures⟩
  · have hfind : findProgram seed config anew force session = (.error error, session) :=
      Action.bind_of_error hload
    rw [hfind]
    exact ⟨rfl, Or.inl rfl, fun _ _ h => nomatch h⟩
  obtain ⟨fixed, entropy, hfixed, hfind⟩ :=
    findProgram_of_configures seed anew force hconfigures
  have hwrites := writes_supplyProgram ⟨config, parsed⟩ anew force
    { session with random := .ofSeed fixed, entropy }
  simp only at hfind
  rw [hfind]
  cases hsupply : LoadedConfig.supplyProgram ⟨config, parsed⟩ anew force
      { session with random := .ofSeed fixed, entropy } with
  | mk result after =>
    rw [hsupply] at hwrites
    have hprovides : Provides seed config anew session.files after.files := by
      cases anew with
      | false => exact Or.inl (congrArg (fun outcome => outcome.2.files) hsupply).symm
      | true => exact Or.inr ⟨rfl, parsed, hconfigures, fixed, hfixed, hwrites.files⟩
    cases result with
    | error error =>
      rw [Action.bind_of_error hsupply]
      exact ⟨hwrites.launches, hprovides, fun _ _ h => nomatch h⟩
    | ok program =>
      have hasked : Action.ask (fun files => files.isFile program) after
          = (.ok (after.files.isFile program), after) := rfl
      rw [Action.bind_of_ok hsupply, Action.bind_of_ok hasked]
      cases after.files.isFile program with
      | false => exact ⟨hwrites.launches, hprovides, fun _ _ h => nomatch h⟩
      | true =>
        refine ⟨hwrites.launches, hprovides, fun loaded place h => ?_⟩
        obtain ⟨rfl, rfl⟩ := Prod.mk.inj (Except.ok.inj h)
        exact ⟨rfl, hconfigures, hwrites.path _ rfl⟩

/-- What may come of the preparations: no engine is started, and either no file is touched but
by writing the program anew, or the harness of the program has come besides. -/
structure Prepares (seed : Option UInt64) (config : Path) (anew : Bool) (session : Session)
    (outcome : Except Error (LoadedConfig × HarnessFile) × Session) : Prop where
  launches : outcome.2.launches = session.launches
  failed : ∀ error, outcome.1 = .error error →
    Provides seed config anew session.files outcome.2.files
  prepared : ∀ loaded file, outcome.1 = .ok (loaded, file) → file.armed = true ∧
    loaded.file = config ∧ Configures session.files config loaded.config ∧
      ∃ found source location, Provides seed config anew session.files found.files ∧
        Instruments loaded.programPath found outcome.2 file.record source location

/-- Preparations that fail have not written a harness. -/
theorem Prepares.of_error {error : Error} {stopped : Session} {seed : Option UInt64} {anew : Bool}
    (hlaunches : stopped.launches = session.launches)
    (hprovides : Provides seed config anew session.files stopped.files) :
    Prepares seed config anew session (.error error, stopped) where
  launches := hlaunches
  failed _ _ := hprovides
  prepared _ _ h := nomatch h

/-- **All that comes before the engine** either fails, and then no harness is there, or a
harness of the program has been written. -/
theorem prepares_prepareRun (seed : Option UInt64) (config : Path) (anew force : Bool)
    (session : Session) :
    Prepares seed config anew session (prepareRun seed config anew force session) := by
  have hfinds := finds_findProgram seed config anew force session
  cases hfind : findProgram seed config anew force session with
  | mk result found =>
    rw [hfind] at hfinds
    cases result with
    | error error =>
      rw [prepareRun, Action.bind_of_error hfind]
      exact .of_error hfinds.launches hfinds.files
    | ok pair =>
      obtain ⟨loaded, program⟩ := pair
      obtain ⟨hfile, hconfigures, rfl⟩ := hfinds.found loaded program rfl
      rw [prepareRun, Action.bind_of_ok hfind]
      rcases instrument_cases loaded.programPath found with
        ⟨error, stopped, hfail, hfiles, hlaunches⟩ | ⟨record, ready, source, location,
          hok, hwritten⟩
      · have hcreate : HarnessFile.create loaded.programPath found = (.error error, stopped) :=
          Action.bind_of_error hfail
        change Prepares seed config anew session ((HarnessFile.create _ >>= _) found)
        rw [Action.bind_of_error hcreate]
        refine .of_error (hlaunches.trans hfinds.launches) ?_
        rw [hfiles]
        exact hfinds.files
      · have hcreate : HarnessFile.create loaded.programPath found = (.ok ⟨record, true⟩, ready) :=
          Action.bind_of_ok hok
        change Prepares seed config anew session ((HarnessFile.create _ >>= _) found)
        rw [Action.bind_of_ok hcreate]
        refine ⟨hwritten.launches.trans hfinds.launches, fun _ h => (nomatch h),
          fun other file h => ?_⟩
        obtain ⟨rfl, rfl⟩ := Prod.mk.inj (Except.ok.inj h)
        exact ⟨rfl, hfile, hconfigures, found, source, location, hfinds.files, hwritten⟩

end Preparing

section Launching

variable {engines : Engines} {loaded : LoadedConfig} {record : HarnessRecord} {session : Session}

/-- How the engine of a configuration is started on a harness. -/
def launchOf (loaded : LoadedConfig) (record : HarnessRecord) (files : FileTree) : Launch where
  command := loaded.config.engine.command
  args := loaded.config.engine.args ++ record.engineArguments (some loaded.file)
  files := files

/-- An engine that cannot be started changes nothing. -/
theorem runRecord_of_error {fault : SystemFault}
    (h : engines session.launches (launchOf loaded record session.files) = .error fault) :
    runRecord engines loaded record session
      = (.error (.engine (.notLaunched loaded.config.engine.command fault)),
        { session with launches := launchOf loaded record session.files :: session.launches }) :=
  Action.bind_of_error (Action.launch_of_error h)

/-- An engine that ends leaves files and a status, and the status is what counts. -/
theorem runRecord_of_ok {outcome : Outcome}
    (h : engines session.launches (launchOf loaded record session.files) = .ok outcome) :
    runRecord engines loaded record session
      = (if outcome.status.isSuccess then .ok ()
          else .error (.engine (.failed loaded.config.engine.command outcome.status)),
        { session with
          launches := launchOf loaded record session.files :: session.launches
          files := outcome.files
          stdout := session.stdout ++ outcome.stdout
          stderr := session.stderr ++ outcome.stderr }) := by
  have hlaunch : runHarness engines loaded.config.engine record (some loaded.file) session
      = (.ok outcome, { session with
          launches := launchOf loaded record session.files :: session.launches
          files := outcome.files }) := Action.launch_of_ok h
  rw [runRecord, Action.bind_of_ok hlaunch]
  cases outcome.status.isSuccess with
  | true => rfl
  | false => rfl

/-- The engine is started once. -/
theorem launches_runRecord (engines : Engines) (loaded : LoadedConfig) (record : HarnessRecord)
    (session : Session) : (runRecord engines loaded record session).2.launches
      = launchOf loaded record session.files :: session.launches := by
  cases hlaunch : engines session.launches (launchOf loaded record session.files) with
  | error fault => rw [runRecord_of_error hlaunch]
  | ok outcome => rw [runRecord_of_ok hlaunch]

end Launching

section Discarding

variable {record : HarnessRecord} {session : Session} {tree : FileTree} {location : Location}
  {content : Text.Bytes}

/-- Removing a harness starts no engine. -/
theorem launches_discard (record : HarnessRecord) (session : Session) :
    (discard record session).2.launches = session.launches := by
  unfold discard
  split <;> rfl

/-- A harness that nobody has touched is removed, and the files are those of before. -/
theorem files_discard_of_plants (h : tree.Plants record.path location content session.files) :
    (discard record session).2.files = tree := by
  have hremove : session.files.remove record.path = .ok tree := by
    rw [h.admits_after.remove_eq h.get?_location, h.erase_eq]
  simp only [discard, hremove]

end Discarding

section Executing

variable {engines : Engines} {seed : Option UInt64} {command : Command} {session : Session}

/-- The code is zero if the command succeeds, and only then. -/
theorem execute_eq_zero_iff :
    (execute engines seed command session).1 = 0 ↔
      (command.perform engines seed session).1 = .ok () := by
  unfold execute
  split
  · rename_i after hdone
    simp [hdone]
  · rename_i error after hfail
    rw [hfail]
    cases error <;> simp [exitCode]

/-- Printing an error leaves the files alone. -/
theorem files_execute : (execute engines seed command session).2.files
    = (command.perform engines seed session).2.files := by
  unfold execute
  split
  · rename_i after hdone
    rw [hdone]
  · rename_i error after hfail
    rw [hfail]

/-- Printing an error starts no engine. -/
theorem launches_execute : (execute engines seed command session).2.launches
    = (command.perform engines seed session).2.launches := by
  unfold execute
  split
  · rename_i after hdone
    rw [hdone]
  · rename_i error after hfail
    rw [hfail]

end Executing

section Running

variable {engines : Engines} {seed : Option UInt64} {config : Path} {anew force : Bool}
  {session ready : Session} {loaded : LoadedConfig} {record : HarnessRecord}

/-- Something that keeps a program from being run and can be seen in the files beforehand. -/
inductive Hindrance (files : FileTree) (config : Path) (anew force : Bool) : Error → Prop
  /-- The configuration cannot be read as text. -/
  | unreadableConfig {fault : SystemFault} (hread : files.readText config = .error fault) :
    Hindrance files config anew force (.source config fault)
  /-- The text is no configuration. -/
  | invalidConfig {text : String} {fault : ConfigFault} (hread : files.readText config = .ok text)
    (hparse : Config.parse text = .error fault) :
    Hindrance files config anew force (.config (.rejected config text fault))
  /-- The program is to be written anew, but something is there already. -/
  | refusedOverwrite {parsed : Config} (hconfig : Configures files config parsed)
    (hanew : anew = true)
    (hforce : force = false) (hholds : files.holds (parsed.programPathBeside config) = true) :
    Hindrance files config anew force (.io (.wouldOverwrite (parsed.programPathBeside config)))
  /-- The program should be there, but it is not. -/
  | missingProgram {parsed : Config} (hconfig : Configures files config parsed)
    (hanew : anew = false) (hmissing : files.isFile (parsed.programPathBeside config) = false) :
    Hindrance files config anew force
      (.invalidCommand (.missingProgram (parsed.programPathBeside config)))
  /-- The program is there, but it cannot be read as text. -/
  | unreadableProgram {parsed : Config} {fault : SystemFault}
    (hconfig : Configures files config parsed)
    (hanew : anew = false) (hthere : files.isFile (parsed.programPathBeside config) = true)
    (hread : files.readText (parsed.programPathBeside config) = .error fault) :
    Hindrance files config anew force (.source (parsed.programPathBeside config) fault)

/-- What hinders a program from being run is reported before anything but the sources has
changed. -/
theorem Hindrance.prepareRun {error : Error} (h : Hindrance session.files config anew force error)
    (seed : Option UInt64) :
    ∃ random entropy, prepareRun seed config anew force session
      = (.error error, { session with random, entropy }) := by
  cases h with
  | unreadableConfig hread =>
    have hload := LoadedConfig.load_of_readText_error hread
    exact ⟨session.random, session.entropy, Action.bind_of_error (Action.bind_of_error hload)⟩
  | invalidConfig hread hparse =>
    have hload := LoadedConfig.load_of_parse_error hread hparse
    exact ⟨session.random, session.entropy, Action.bind_of_error (Action.bind_of_error hload)⟩
  | refusedOverwrite hconfig hanew hforce hholds =>
    subst hanew hforce
    obtain ⟨fixed, entropy, -, hfind⟩ := findProgram_of_configures seed true false hconfig
    refine ⟨.ofSeed fixed, entropy, Action.bind_of_error (hfind.trans ?_)⟩
    exact Action.bind_of_error (LoadedConfig.writeProgram_of_holds hholds)
  | missingProgram hconfig hanew hmissing =>
    subst hanew
    obtain ⟨random, entropy, hfind⟩ := findProgram_of_not_anew seed force hconfig
    simp only [hmissing, Bool.false_eq_true, if_false] at hfind
    exact ⟨random, entropy, Action.bind_of_error hfind⟩
  | unreadableProgram hconfig hanew hthere hread =>
    subst hanew
    obtain ⟨random, entropy, hfind⟩ := findProgram_of_not_anew seed force hconfig
    simp only [hthere, if_true] at hfind
    refine ⟨random, entropy, (Action.bind_of_ok hfind).trans ?_⟩
    exact Action.bind_of_error (Action.bind_of_error (instrument_of_readText_error hread))

/-- As long as no harness is written there is nothing to be removed. -/
theorem perform_run_of_error {error : Error} {stopped : Session}
    (h : prepareRun seed config anew force session = (.error error, stopped)) :
    (Command.run config anew force).perform engines seed session = (.error error, stopped) :=
  Action.bind_of_error h

/-- Once a harness is written, it is run and removed. -/
theorem perform_run_of_ok {file : HarnessFile}
    (h : prepareRun seed config anew force session = (.ok (loaded, file), ready))
    (harmed : file.armed = true) :
    (Command.run config anew force).perform engines seed session
      = ((runRecord engines loaded file.record ready).1,
        (discard file.record (runRecord engines loaded file.record ready).2).2) := by
  have hdrop : file.drop = discard file.record := by rw [HarnessFile.drop, if_pos harmed]
  rw [perform, performRun, Action.bind_of_ok h]
  change ((runRecord engines loaded file.record ready).1,
    (file.drop (runRecord engines loaded file.record ready).2).2) = _
  rw [hdrop]

/-- If no harness is written no engine is started. -/
theorem launches_run_of_error {error : Error} {stopped : Session}
    (h : prepareRun seed config anew force session = (.error error, stopped)) :
    (execute engines seed (.run config anew force) session).2.launches = session.launches := by
  have hprepares := prepares_prepareRun seed config anew force session
  rw [h] at hprepares
  rw [launches_execute, perform_run_of_error h]
  exact hprepares.launches

/-- If a harness is written the engine is started on it, once. -/
theorem launches_run_of_ok {file : HarnessFile}
    (h : prepareRun seed config anew force session = (.ok (loaded, file), ready)) :
    (execute engines seed (.run config anew force) session).2.launches
      = launchOf loaded file.record ready.files :: session.launches := by
  have hprepares := prepares_prepareRun seed config anew force session
  rw [h] at hprepares
  obtain ⟨harmed, -⟩ := hprepares.prepared loaded file rfl
  have hearlier : ready.launches = session.launches := hprepares.launches
  rw [launches_execute, perform_run_of_ok h harmed, launches_discard, launches_runRecord, hearlier]

end Running

end Command

end EngineFuzz
