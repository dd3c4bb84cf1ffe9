import EngineFuzz.Proofs.ExpressionSymbols
import EngineFuzz.Proofs.ReachedValues
import EngineFuzz.Proofs.RunCommand
import Mathlib.Data.List.Induction
/-!
# What writing a program does to other files

A program is written by two commands, and both do the same to the files until it is there.
Directories may come, and one file may be replaced: the one to which the path of the program
leads in the end.  Unless the program is written by force, the path must have led nowhere in the
beginning.

That does not keep every file from being replaced.  A path may lead out of a directory again by
two dots, and if that directory is missing the path leads nowhere; then the directory is made,
and the path leads to whatever stands beside it.  In a tree where everything stands in a
directory there is no other way: segments that never lead upwards pass only directories that are
above the file.

* `IsRooted` — everything stands in a directory;
* `IsRooted.walk`, `IsRooted.holds_of_resolve` — where segments lead that never lead upwards;
* `Spares`, `Supplies` — what becomes of the files that were there, and what comes;
* `spares_writeProgram`, `supplies_of_writeProgram` — writing a program;
* `exists_written` — the two commands do the same;
* `generation_spares_files` — what that means for the files.
-/

namespace EngineFuzz

open Randomness

namespace FileTree

open Text (Bytes)
open EngineFuzz.Path (segmentsOf IsName)

section Rooted

variable {tree other : FileTree} {path : Path} {here there location : Location} {entry : Entry}
  {segments : List Bytes} {directory : Location} {name content : Bytes}

/-- Everything stands in a directory. -/
def IsRooted (tree : FileTree) : Prop :=
  ∀ e ∈ tree.entries, tree.get? e.1.dropLast = some .directory

instance (tree : FileTree) : Decidable tree.IsRooted :=
  inferInstanceAs (Decidable (∀ e ∈ tree.entries, tree.get? e.1.dropLast = some .directory))

/-- What stands somewhere stands in a directory. -/
theorem IsRooted.get?_dropLast (h : tree.IsRooted) (hentry : tree.get? location = some entry) :
    tree.get? location.dropLast = some .directory := by
  cases location with
  | nil => rfl
  | cons first others =>
    obtain ⟨found, hfound, -⟩ := Option.map_eq_some_iff.mp hentry
    have hlocation : found.1 = first :: others := by simpa using List.find?_some hfound
    rw [← hlocation]
    exact h found (List.mem_of_find?_eq_some hfound)

/-- All that is passed on the way to something is a directory. -/
theorem IsRooted.get?_of_prefix (h : tree.IsRooted) (hentry : tree.get? there = some entry)
    (hway : here <+: there) (hne : here ≠ there) : tree.get? here = some .directory := by
  obtain ⟨more, rfl⟩ := hway
  induction more using List.reverseRecOn generalizing entry with
  | nil => exact absurd (List.append_nil here).symm hne
  | append_singleton more last ih =>
    have habove := h.get?_dropLast hentry
    rw [← List.append_assoc, List.dropLast_concat] at habove
    by_cases hnil : more = []
    · rwa [hnil, List.append_nil] at habove
    · exact ih habove fun heq => hnil (List.self_eq_append_right.mp heq)

/-- Segments lead downwards, unless two dots are among them. -/
theorem prefix_of_walk (hdots : [Path.dot, Path.dot] ∉ segments)
    (hwalk : tree.walk here segments = .ok there) : here <+: there := by
  induction segments generalizing here with
  | nil =>
    obtain rfl : here = there := Except.ok.inj hwalk
    exact List.prefix_refl here
  | cons first others ih =>
    have hfirst := List.ne_of_not_mem_cons hdots
    have hothers := List.not_mem_of_not_mem_cons hdots
    obtain ⟨next, hstep, hrest⟩ := walk_cons_eq_ok_iff.mp hwalk
    have hnext := ih hothers hrest
    obtain ⟨-, ⟨-, rfl⟩ | ⟨hup, -⟩ | ⟨-, -, rfl, -⟩⟩ := step_eq_ok_iff.mp hstep
    · exact hnext
    · exact absurd hup.symm hfirst
    · exact (List.prefix_append here [first]).trans hnext

/-- **A way downwards** that leads to a directory in some tree leads there in every tree that
has the directory. -/
theorem IsRooted.walk (h : tree.IsRooted) (hdots : [Path.dot, Path.dot] ∉ segments)
    (hwalk : other.walk here segments = .ok there) (hthere : tree.get? there = some .directory) :
    tree.walk here segments = .ok there := by
  have hdirectory : ∀ {place}, place <+: there → tree.get? place = some .directory := by
    intro place hplace
    by_cases heq : place = there
    · rw [heq, hthere]
    · exact h.get?_of_prefix hthere hplace heq
  induction segments generalizing here with
  | nil => exact hwalk
  | cons first others ih =>
    have hhere := hdirectory (prefix_of_walk hdots hwalk)
    have hfirst := List.ne_of_not_mem_cons hdots
    have hothers := List.not_mem_of_not_mem_cons hdots
    obtain ⟨next, hstep, hrest⟩ := walk_cons_eq_ok_iff.mp hwalk
    have hnext := hdirectory (prefix_of_walk hothers hrest)
    refine walk_cons_eq_ok_iff.mpr ⟨next, step_eq_ok_iff.mpr ⟨hhere, ?_⟩, ih hothers hrest⟩
    obtain ⟨-, hidle | ⟨hup, -⟩ | ⟨hname, hshort, rfl, -⟩⟩ := step_eq_ok_iff.mp hstep
    · exact Or.inl hidle
    · exact absurd hup.symm hfirst
    · refine Or.inr (Or.inr ⟨hname, hshort, rfl, ?_⟩)
      rw [hnext]
      exact Option.some_ne_none _

/-- A path that never leads upwards and leads to a file in some tree leads to what stands there
in every tree. -/
theorem IsRooted.holds_of_resolve (h : tree.IsRooted) (hbase : other.base = tree.base)
    (hdots : [Path.dot, Path.dot] ∉ segmentsOf path.bytes)
    (hresolve : other.resolve path = .ok location)
    (hfile : other.get? location = some (.file content))
    (hentry : tree.get? location = some entry) : tree.holds path = true := by
  obtain ⟨directory, name, hleads, hcheck, hthere, -⟩ :=
    exists_of_read (read_of_resolve hresolve hfile)
  obtain ⟨hshort, rfl⟩ := hleads.of_resolve hcheck hresolve
  obtain ⟨before, hsegments, hwalk⟩ := hleads.segments
  have hdirectory : tree.get? directory = some .directory := by
    have habove := h.get?_dropLast hentry
    rwa [List.dropLast_concat] at habove
  have hbefore : [Path.dot, Path.dot] ∉ before := fun hmem =>
    hdots (hsegments ▸ List.mem_append_left [name] hmem)
  have hstart : other.start path = tree.start path := by rw [start, start, hbase]
  rw [hstart] at hwalk
  have hleads' : tree.LeadsTo path directory name :=
    ⟨hleads.isName, ⟨before, hsegments, h.walk hbefore hwalk hdirectory⟩, hdirectory⟩
  rw [holds, hleads'.resolve_eq hcheck hshort, hentry, if_neg (Option.some_ne_none entry)]
  rfl

end Rooted

section Sparing

/-- What was there is there still, but for one file: the one to which the path of a program leads.
Unless it is replaced by force the path led nowhere before, and it has two dots in it. -/
def Spares (start after : FileTree) (program : Path) (force : Bool) : Prop :=
  ∀ location entry, start.get? location = some entry → after.get? location = some entry ∨
    (∃ content, entry = .file content) ∧ after.resolve program = .ok location ∧
      (force = true ∨
        start.holds program = false ∧ [Path.dot, Path.dot] ∈ segmentsOf program.bytes)

/-- A program is where its path leads, and nothing else has come but directories above it. -/
def Supplies (start after : FileTree) (program : Path) (source : String) : Prop :=
  ∃ location, after.resolve program = .ok location ∧
    after.get? location = some (.file (Text.bytesOf source)) ∧
    ∀ other, other ≠ location → after.get? other = start.get? other ∨
      start.get? other = none ∧ after.get? other = some .directory ∧
        ∃ above, above.IsAbove program ∧ after.resolve above = .ok other

/-- A program that is supplied can be read. -/
theorem Supplies.read {start after : FileTree} {program : Path} {source : String}
    (h : start.Supplies after program source) : after.read program = .ok (Text.bytesOf source) := by
  obtain ⟨location, hresolve, hfile, -⟩ := h
  exact read_of_resolve hresolve hfile

/-- A program that is supplied is a file. -/
theorem Supplies.isFile {start after : FileTree} {program : Path} {source : String}
    (h : start.Supplies after program source) : after.isFile program = true := by
  obtain ⟨location, hresolve, hfile, -⟩ := h
  simp only [FileTree.isFile, hresolve, hfile]

end Sparing

end FileTree

section Programs

variable {loaded : LoadedConfig} {force : Bool} {session after : Session} {path : Path}

/-- **Writing a program** spares what is there, whether it succeeds or not. -/
theorem LoadedConfig.spares_writeProgram (loaded : LoadedConfig) (force : Bool) (session : Session)
    (h : session.files.IsRooted) : session.files.Spares (loaded.writeProgram force session).2.files
      loaded.programPath force := by
  intro location entry hentry
  have hfiles := (loaded.writes_writeProgram force session).files
  rcases hfiles.entries location with hsame | ⟨hnone, -⟩ | ⟨hnot, hresolve, source, -, hfile⟩
  · exact Or.inl (hsame.trans hentry)
  · rw [hentry] at hnone
    cases hnone
  have hcontent : ∃ content, entry = .file content := by
    cases entry with
    | file content => exact ⟨content, rfl⟩
    | directory => exact absurd hentry hnot
  cases force with
  | true => exact Or.inr ⟨hcontent, hresolve, Or.inl rfl⟩
  | false =>
    by_cases hholds : session.files.holds loaded.programPath = true
    · rw [writeProgram_of_holds hholds]
      exact Or.inl hentry
    refine Or.inr ⟨hcontent, hresolve, Or.inr ⟨Bool.eq_false_iff.mpr hholds, ?_⟩⟩
    by_contra hdots
    exact hholds (h.holds_of_resolve hfiles.base hdots hresolve hfile hentry)

/-- A program that was written has been synthesized and is there. -/
theorem LoadedConfig.supplies_of_writeProgram
    (h : loaded.writeProgram force session = (.ok path, after)) :
    path = loaded.programPath ∧ after.launches = session.launches ∧ after.stdout = session.stdout ∧
      ∃ program,
        ((Program.synthesize .standard loaded.config.shape).run session.random).1 = .ok program ∧
        session.files.Supplies after.files path program.source := by
  have hpaves := FileTree.paves_makeParent session.files loaded.programPath
  rw [writeProgram_eq] at h
  split at h
  · cases (Prod.mk.inj h).1
  split at h
  · cases (Prod.mk.inj h).1
  rename_i program random hrun
  split at h
  · cases (Prod.mk.inj h).1
  rename_i middle hmade
  rw [hmade] at hpaves
  split at h
  · cases (Prod.mk.inj h).1
  rename_i files hwrite
  obtain ⟨hpath, rfl⟩ := Prod.mk.inj h
  obtain rfl := Except.ok.inj hpath
  refine ⟨rfl, rfl, rfl, program, by rw [hrun], ?_⟩
  obtain ⟨location, hne, hfree, hfiles, hresolve⟩ := FileTree.exists_of_write hwrite
  subst hfiles
  have hkeeps := FileTree.keepsDirectories_insert hne hfree (.file (Text.bytesOf program.source))
  refine ⟨location, hresolve, ?_, fun other hother => ?_⟩
  · rw [FileTree.get?_insert middle hne, if_pos rfl]
  · rw [FileTree.get?_insert middle hne, if_neg hother]
    rcases hpaves.entries other with hsame | ⟨hnone, hnew, above, habove, hleads⟩
    · exact Or.inl hsame
    · exact Or.inr ⟨hnone, hnew, above, habove, hkeeps.resolve hleads hnew⟩

/-- A program without blocks is synthesized from every source. -/
theorem Program.exists_synthesize_eq (shape : ProgramShape) (h : shape.blocks.max = 0)
    (pool : SymbolPool) (random : Source) :
    ∃ next, (synthesize pool shape).run random = (.ok ⟨[]⟩, next) := by
  have hcount : (shape.blocks.sample random).1 = 0 := by
    have hbounds := (shape.blocks.sample_bounds random).2
    rw [h] at hbounds
    exact Nat.le_zero.mp hbounds
  refine ⟨(shape.blocks.sample random).2, ?_⟩
  have hrun : (synthesize pool shape).run random = (do
      ExceptT.mk (pure (checkStorage 80 (shape.blocks.sample random).1))
      let blocks ← drawBlocks pool shape.guardShape 0 (shape.blocks.sample random).1
      return ⟨blocks⟩ : Synthesis Program).run (shape.blocks.sample random).2 := rfl
  rw [hrun, hcount]
  rfl

end Programs

namespace Command

section Writing

variable {config : Path} {session : Session} {parsed : Config}

/-- Once the seed is fixed, both commands that write a program write it in the same way.  The
one prints its path, and the other goes on from it. -/
theorem written_of_begun {seed : Option UInt64} {begun : Session} (force : Bool)
    (h : Configures session.files config parsed)
    (hbegin : beginWith (seed.or parsed.seed) session = (.ok (), begun)) :
    let loaded : LoadedConfig := ⟨config, parsed⟩
    (performGenerate seed config force session = match loaded.writeProgram force begun with
      | (.ok path, after) => (.ok (),
          { after with stdout := after.stdout ++ Text.bytesOf (path.display ++ "\n") })
      | (.error error, after) => (.error error, after)) ∧
    findProgram seed config true force session = match loaded.writeProgram force begun with
      | (.ok path, after) => (.ok (loaded, path), after)
      | (.error error, after) => (.error error, after) := by
  intro loaded
  rw [performGenerate, findProgram, Action.bind_of_ok h.load, Action.bind_of_ok h.load,
    Action.bind_of_ok hbegin, Action.bind_of_ok hbegin]
  have hsupply : loaded.supplyProgram true force = loaded.writeProgram force := rfl
  rw [hsupply]
  cases hwritten : loaded.writeProgram force begun with
  | mk result after =>
    cases result with
    | error error =>
      exact ⟨Action.bind_of_error hwritten, Action.bind_of_error hwritten⟩
    | ok path =>
      refine ⟨(Action.bind_of_ok hwritten).trans ?_, (Action.bind_of_ok hwritten).trans ?_⟩
      · simp only [Action.printLine, Action.write, List.append_nil]
      · obtain ⟨-, -, -, program, -, hsupplies⟩ := LoadedConfig.supplies_of_writeProgram hwritten
        have hasked : Action.ask (fun files => files.isFile path) after = (.ok true, after) := by
          rw [Action.ask, hsupplies.isFile]
        exact Action.bind_of_ok hasked

/-- **The two commands that write a program** fix the same seed and write it in the same way. -/
theorem exists_written (seed : Option UInt64) (force : Bool)
    (h : Configures session.files config parsed) :
    ∃ fixed entropy, (∀ given, seed.or parsed.seed = some given → fixed = given) ∧
      let loaded : LoadedConfig := ⟨config, parsed⟩
      let written := loaded.writeProgram force { session with random := .ofSeed fixed, entropy }
      (performGenerate seed config force session = match written with
        | (.ok path, after) => (.ok (),
            { after with stdout := after.stdout ++ Text.bytesOf (path.display ++ "\n") })
        | (.error error, after) => (.error error, after)) ∧
      findProgram seed config true force session = match written with
        | (.ok path, after) => (.ok (loaded, path), after)
        | (.error error, after) => (.error error, after) := by
  obtain ⟨fixed, entropy, hfixed, hbegin⟩ := exists_beginWith (seed.or parsed.seed) session
  exact ⟨fixed, entropy, hfixed, written_of_begun force h hbegin⟩

/-- Without a configuration nothing happens. -/
theorem exists_error_of_not_configures (seed : Option UInt64) (anew force : Bool)
    (h : ∀ parsed, ¬Configures session.files config parsed) :
    ∃ error, performGenerate seed config force session = (.error error, session) ∧
      findProgram seed config anew force session = (.error error, session) := by
  rcases LoadedConfig.load_cases config session with ⟨error, hload⟩ | ⟨parsed, hconfigures⟩
  · exact ⟨error, Action.bind_of_error hload, Action.bind_of_error hload⟩
  · exact absurd hconfigures (h parsed)

end Writing

section Running

variable {engines : Engines} {seed : Option UInt64} {config : Path} {force : Bool}
  {session : Session} {record : HarnessRecord} {tree left : FileTree}

/-- Removing a file adds nothing. -/
theorem extends_of_remove {path : Path} (h : tree.remove path = .ok left) : tree.Extends left := by
  obtain ⟨⟨directory, last⟩, -, hplace⟩ := FileTree.bind_eq_ok_iff.mp h
  cases last with
  | dots => cases hplace
  | name name slashed =>
    obtain ⟨found, -, hremoved⟩ := FileTree.bind_eq_ok_iff.mp hplace
    have hne : directory ++ [name] ≠ [] :=
      List.append_ne_nil_of_right_ne_nil directory (List.cons_ne_nil name [])
    have hleft : left = tree.erase (directory ++ [name]) := by
      cases found with
      | none => cases hremoved
      | some entry =>
        cases entry with
        | directory => cases hremoved
        | file content =>
          simp only at hremoved
          split at hremoved
          · cases hremoved
          split at hremoved
          · cases hremoved
          · exact (Except.ok.inj hremoved).symm
    intro location entry hentry
    rw [hleft, FileTree.get?_erase tree hne] at hentry
    split at hentry
    · cases hentry
    · exact hentry

/-- Removing a harness adds nothing. -/
theorem extends_discard (record : HarnessRecord) (session : Session) :
    session.files.Extends (discard record session).2.files := by
  unfold discard
  split
  · rename_i files hremove
    exact extends_of_remove hremove
  · exact fun _ _ hentry => hentry

/-- **Running a program that is there** writes one file, which is a harness, before the engine is
started, and none afterwards. -/
theorem run_writes_harness (engines : Engines) (seed : Option UInt64) (config : Path) (force : Bool)
    (session : Session) :
    let start := session.files
    let run := execute engines seed (.run config false force) session
    (run.2.launches = session.launches ∧ run.2.files = start) ∨
    ∃ launch location content, run.2.launches = launch :: session.launches ∧
      start.Gains launch.files location content ∧
      ((∃ fault, engines session.launches launch = .error fault ∧ run.2.files = start) ∨
        ∃ outcome, engines session.launches launch = .ok outcome ∧
          outcome.files.Extends run.2.files) := by
  intro start run
  have hfiles : run.2.files = _ := files_execute
  have hsame : ∀ {after}, Provides seed config false start after → after = start := by
    rintro after (rfl | ⟨hanew, -⟩)
    · rfl
    · cases hanew
  have hprepares := prepares_prepareRun seed config false force session
  cases hprepare : prepareRun seed config false force session with
  | mk result ready =>
    rw [hprepare] at hprepares
    cases result with
    | error error =>
      rw [perform_run_of_error hprepare] at hfiles
      exact Or.inl ⟨launches_run_of_error hprepare,
        hfiles.trans (hsame (hprepares.failed error rfl))⟩
    | ok pair =>
      obtain ⟨loaded, file⟩ := pair
      obtain ⟨harmed, -, -, found, source, location, hprovides, hwritten⟩ :=
        hprepares.prepared loaded file rfl
      have hplants := hwritten.plants
      rw [hsame hprovides] at hplants
      have hearlier : ready.launches = session.launches := hprepares.launches
      rw [perform_run_of_ok hprepare harmed] at hfiles
      refine Or.inr ⟨_, location, _, launches_run_of_ok hprepare, hplants.gains, ?_⟩
      rw [← hearlier]
      cases hlaunch : engines ready.launches (launchOf loaded file.record ready.files) with
      | error fault =>
        rw [runRecord_of_error hlaunch] at hfiles
        exact Or.inl ⟨fault, rfl, hfiles.trans (files_discard_of_plants hplants)⟩
      | ok outcome =>
        rw [runRecord_of_ok hlaunch] at hfiles
        refine Or.inr ⟨outcome, rfl, ?_⟩
        rw [hfiles]
        exact extends_discard file.record _

end Running

section Generating

variable {config : Path} {session : Session} {parsed : Config}

/-- **Until the program is there**, both commands do the same to the files, and start no engine. -/
theorem findProgram_alike (engines : Engines) (seed : Option UInt64) (config : Path) (force : Bool)
    (session : Session) :
    let generated := execute engines seed (.generate config force) session
    let found := findProgram seed config true force session
    found.2.files = generated.2.files ∧ ((∃ pair, found.1 = .ok pair) ↔ generated.1 = 0) ∧
      found.2.launches = session.launches ∧ generated.2.launches = session.launches := by
  intro generated found
  have hcode : generated.1 = 0 ↔ _ := execute_eq_zero_iff
  have hfiles : generated.2.files = _ := files_execute
  have hstarted : generated.2.launches = _ := launches_execute
  simp only [perform] at hcode hfiles hstarted
  have hlaunches : found.2.launches = session.launches :=
    (finds_findProgram seed config true force session).launches
  have halike : found.2.files = (performGenerate seed config force session).2.files ∧
      ((∃ pair, found.1 = .ok pair) ↔ (performGenerate seed config force session).1 = .ok ()) ∧
        found.2.launches = (performGenerate seed config force session).2.launches := by
    by_cases hnone : ∀ parsed, ¬Configures session.files config parsed
    · obtain ⟨error, hgenerated, hfound⟩ := exists_error_of_not_configures seed true force hnone
      simp only [found, hgenerated, hfound]
      simp
    · obtain ⟨parsed, hconfigures⟩ := not_forall_not.mp hnone
      obtain ⟨fixed, entropy, -, hgenerated, hfound⟩ := exists_written seed force hconfigures
      simp only [found, hgenerated, hfound]
      split <;> simp
  rw [hcode, hfiles, hstarted, ← halike.2.2]
  exact ⟨halike.1, halike.2.1, hlaunches, hlaunches⟩

/-- Writing the program of a configuration spares what is there. -/
theorem spares_performGenerate (seed : Option UInt64) (force : Bool) (h : session.files.IsRooted)
    (hconfigures : Configures session.files config parsed) :
    session.files.Spares (performGenerate seed config force session).2.files
      (parsed.programPathBeside config) force := by
  obtain ⟨fixed, entropy, -, hgenerated, -⟩ := exists_written seed force hconfigures
  have hspares := LoadedConfig.spares_writeProgram ⟨config, parsed⟩ force
    { session with random := .ofSeed fixed, entropy } h
  rw [hgenerated]
  split
  · rename_i path after hwritten
    rw [hwritten] at hspares
    exact hspares
  · rename_i error after hwritten
    rw [hwritten] at hspares
    exact hspares

/-- A program that is written is the one of the shape and the seed. -/
theorem supplies_of_performGenerate {seed : Option UInt64} {force : Bool}
    (hconfigures : Configures session.files config parsed)
    (h : (performGenerate seed config force session).1 = .ok ()) : ∃ fixed synthesized,
      (∀ given, seed.or parsed.seed = some given → fixed = given) ∧
      ((Program.synthesize .standard parsed.shape).run (.ofSeed fixed)).1 = .ok synthesized ∧
      session.files.Supplies (performGenerate seed config force session).2.files
        (parsed.programPathBeside config) synthesized.source := by
  obtain ⟨fixed, entropy, hfixed, hgenerated, -⟩ := exists_written seed force hconfigures
  rw [hgenerated] at h ⊢
  cases hwritten : LoadedConfig.writeProgram ⟨config, parsed⟩ force
      { session with random := .ofSeed fixed, entropy } with
  | mk result after =>
    rw [hwritten] at h
    cases result with
    | error error => cases h
    | ok path =>
      obtain ⟨rfl, -, -, synthesized, hsynthesized, hsupplies⟩ :=
        LoadedConfig.supplies_of_writeProgram hwritten
      exact ⟨fixed, synthesized, hfixed, hsynthesized, hsupplies⟩

/-- A program is not written where something is already, unless by force. -/
theorem performGenerate_of_holds (seed : Option UInt64)
    (hconfigures : Configures session.files config parsed)
    (hholds : session.files.holds (parsed.programPathBeside config) = true) :
    ∃ error after, performGenerate seed config false session = (.error error, after) ∧
      after.files = session.files := by
  obtain ⟨fixed, entropy, -, hgenerated, -⟩ := exists_written seed false hconfigures
  have hrefused : LoadedConfig.writeProgram ⟨config, parsed⟩ false
      { session with random := .ofSeed fixed, entropy } = _ :=
    LoadedConfig.writeProgram_of_holds hholds
  rw [hrefused] at hgenerated
  exact ⟨_, _, hgenerated, rfl⟩

/-- **Writing a program spares other files.**  Both commands that write a program do the same to
the files until it is there, and start no engine by then.  What was there is there still, but
for the file to which the path of the program leads; and if that is not replaced by force, the
path led nowhere before and has two dots in it.  If the program is written, it is the one of the
shape and the seed, it stands where its path leads, and nothing else has come but directories
above it.  If something is there already and force is not used, both commands fail and have done
nothing; and without a configuration they do nothing either. A program that is run without being
written anew is not written at all. -/
theorem generation_spares_files (engines : Engines) (seed : Option UInt64) (config : Path)
    (force : Bool) (session : Session) (h : session.files.IsRooted) :
    let start := session.files
    let generated := execute engines seed (.generate config force) session
    let found := findProgram seed config true force session
    let run := execute engines seed (.run config false force) session
    (found.2.files = generated.2.files ∧ ((∃ pair, found.1 = .ok pair) ↔ generated.1 = 0) ∧
      found.2.launches = session.launches ∧ generated.2.launches = session.launches) ∧
    (∀ parsed, Configures start config parsed →
      let program := parsed.programPathBeside config
      start.Spares generated.2.files program force ∧
      (generated.1 = 0 → ∃ fixed synthesized,
        (∀ given, seed.or parsed.seed = some given → fixed = given) ∧
        ((Program.synthesize .standard parsed.shape).run (.ofSeed fixed)).1 = .ok synthesized ∧
        start.Supplies generated.2.files program synthesized.source) ∧
      (force = false → start.holds program = true →
        generated.1 ≠ 0 ∧ generated.2.files = start ∧
        let anew := execute engines seed (.run config true false) session
        anew.1 ≠ 0 ∧ anew.2.files = start ∧ anew.2.launches = session.launches)) ∧
    ((∀ parsed, ¬Configures start config parsed) → generated.1 ≠ 0 ∧ generated.2.files = start) ∧
    ((run.2.launches = session.launches ∧ run.2.files = start) ∨
      ∃ launch location content, run.2.launches = launch :: session.launches ∧
        start.Gains launch.files location content ∧
        ((∃ fault, engines session.launches launch = .error fault ∧ run.2.files = start) ∨
          ∃ outcome, engines session.launches launch = .ok outcome ∧
            outcome.files.Extends run.2.files)) := by
  intro start generated found run
  have hcode : generated.1 = 0 ↔ _ := execute_eq_zero_iff
  have hfiles : generated.2.files = _ := files_execute
  simp only [perform] at hcode hfiles
  refine ⟨findProgram_alike engines seed config force session, fun parsed hconfigures => ?_,
    fun hnowhere => ?_, run_writes_harness engines seed config force session⟩
  · intro program
    refine ⟨hfiles ▸ spares_performGenerate seed force h hconfigures,
      fun hzero => hfiles ▸ supplies_of_performGenerate hconfigures (hcode.mp hzero), ?_⟩
    rintro rfl hholds
    obtain ⟨error, after, hrefused, hafter⟩ := performGenerate_of_holds seed hconfigures hholds
    have hhindrance : Hindrance session.files config true false _ :=
      .refusedOverwrite hconfigures rfl rfl hholds
    obtain ⟨random, entropy, hstopped⟩ := hhindrance.prepareRun seed
    rw [hrefused] at hcode hfiles
    refine ⟨fun hzero => (by cases hcode.mp hzero), hfiles.trans hafter, ?_⟩
    intro anew
    have hcode' : anew.1 = 0 ↔ _ := execute_eq_zero_iff
    have hfiles' : anew.2.files = _ := files_execute
    rw [perform_run_of_error hstopped] at hcode' hfiles'
    exact ⟨fun hzero => (by cases hcode'.mp hzero), hfiles', launches_run_of_error hstopped⟩
  · obtain ⟨error, hgenerated, -⟩ := exists_error_of_not_configures seed true force hnowhere
    rw [hgenerated] at hcode hfiles
    exact ⟨fun hzero => (by cases hcode.mp hzero), hfiles⟩

/-- A configuration file and a file beside it. -/
private def besideConfig (text name content : String) : FileTree :=
  ((FileTree.ofBase [Text.bytesOf "w"]).insert [Text.bytesOf "w", Text.bytesOf "c.toml"]
      (.file (Text.bytesOf text))).insert [Text.bytesOf "w", Text.bytesOf name]
    (.file (Text.bytesOf content))

/-- A program that is there is not written, and its file is as it was. -/
theorem generation_spares_files_refused :
    let session := Session.begin (besideConfig "program_path = 'p.js'" "p.js" "f();") (.listed [])
      (.listed [])
    let generated := execute (fun _ _ => .error .noEntry) none
      (.generate (Path.ofString "c.toml") false) session
    session.files.IsRooted ∧ generated.1 ≠ 0 ∧ generated.2.files = session.files := by
  intro session
  have hrooted : session.files.IsRooted := by decide +kernel
  have hconfigures : Configures session.files (Path.ofString "c.toml")
      ⟨.ofString "p.js", none, Config.defaultShape, .randomized, Config.defaultEngine⟩ :=
    ⟨"program_path = 'p.js'", by decide +kernel, by decide +kernel⟩
  have hbeside : Config.programPathBeside ⟨.ofString "p.js", none, Config.defaultShape, .randomized,
      Config.defaultEngine⟩ (Path.ofString "c.toml") = Path.ofString "p.js" := by decide +kernel
  have hholds : session.files.holds (Path.ofString "p.js") = true := by decide +kernel
  obtain ⟨-, hconfigured, -⟩ := generation_spares_files (fun _ _ => .error .noEntry) none
    (Path.ofString "c.toml") false session hrooted
  have hprogram := hconfigured _ hconfigures
  rw [hbeside] at hprogram
  obtain ⟨hcode, hsame, -⟩ := hprogram.2.2 rfl hholds
  exact ⟨hrooted, hcode, hsame⟩

/-- A program without blocks is written if the directories can be made and the file can be
written. -/
theorem execute_generate_of_no_blocks (engines : Engines) (seed : Option UInt64) {program : Path}
    {made written : FileTree} (hconfigures : Configures session.files config parsed)
    (hbeside : parsed.programPathBeside config = program) (hblocks : parsed.shape.blocks.max = 0)
    (hholds : session.files.holds program = false)
    (hmade : session.files.makeParent program = (made, .ok ()))
    (hwrite : made.write program (Text.bytesOf (Program.source ⟨[]⟩)) = .ok written) :
    let generated := execute engines seed (.generate config false) session
    generated.1 = 0 ∧ generated.2.files = written := by
  obtain ⟨fixed, entropy, -, hgenerated, -⟩ := exists_written seed false hconfigures
  obtain ⟨random, hrun⟩ :=
    Program.exists_synthesize_eq parsed.shape hblocks .standard (.ofSeed fixed)
  have hpath : LoadedConfig.programPath ⟨config, parsed⟩ = program := hbeside
  simp only [LoadedConfig.writeProgram_eq, hpath, hholds, hrun, hmade, hwrite, Bool.false_and,
    Bool.false_eq_true, if_false] at hgenerated
  simp only [execute, perform, hgenerated, and_self]

/-- A path that leads out of a missing directory: the program is written without force, and the
file that was there is lost. -/
theorem generate_replaces_file :
    let text := "program_path = 'x/../p.js'\n[generator]\nblocks = [0, 0]"
    let session := Session.begin (besideConfig text "p.js" "f();") (.listed []) (.listed [])
    let generated := execute (fun _ _ => .error .noEntry) (some 1)
      (.generate (Path.ofString "c.toml") false) session
    let place := [Text.bytesOf "w", Text.bytesOf "p.js"]
    session.files.IsRooted ∧ generated.1 = 0 ∧
      session.files.get? place = some (.file (Text.bytesOf "f();")) ∧
      generated.2.files.get? place = some (.file (Text.bytesOf (Program.source ⟨[]⟩))) := by
  intro text session
  let program := Path.ofString "x/../p.js"
  let parsed : Config :=
    ⟨program, none, { Config.defaultShape with blocks := .empty }, .randomized,
      Config.defaultEngine⟩
  have hconfigures : Configures session.files (Path.ofString "c.toml") parsed :=
    ⟨text, by decide +kernel, by decide +kernel⟩
  have hbeside : parsed.programPathBeside (Path.ofString "c.toml") = program := by decide +kernel
  have hholds : session.files.holds program = false := by decide +kernel
  let made := session.files.insert [Text.bytesOf "w", Text.bytesOf "x"] .directory
  have hmade : session.files.makeParent program = (made, .ok ()) := by decide +kernel
  have hwrite : ∀ content, made.write program content =
      .ok (made.insert [Text.bytesOf "w", Text.bytesOf "p.js"] (.file content)) := fun _ => rfl
  obtain ⟨hcode, hfiles⟩ := execute_generate_of_no_blocks (fun _ _ => .error .noEntry) (some 1)
    hconfigures hbeside rfl hholds hmade (hwrite _)
  refine ⟨by decide +kernel, hcode, by decide +kernel, ?_⟩
  rw [hfiles, FileTree.get?_insert made (List.cons_ne_nil _ _), if_pos rfl]

end Generating

end Command

end EngineFuzz
