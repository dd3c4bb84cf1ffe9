import EngineFuzz.Proofs.HarnessFile
import EngineFuzz.Proofs.TakenFiles
import Mathlib.Data.List.Perm.Basic
/-!
# Handles of harnesses

Handles come and go in any order: harnesses are written, of programs or of other harnesses, some
of them in vain; handles are dropped, and handles are given up so that their files stay.
Throughout, the files are those of the start together with one for each harness that is *held*,
that is, whose handle is live or which was kept.

The invariant refers every path to the tree of the start.  The directories never change, so a
path admits the same location all along, and a file that was made where nothing stood can be
told from all others by its location.

* `instrument_cases` — writing a harness leaves the files alone, or plants one;
* `HandleStep.apply`, `Custody` — what is done with handles, and what somebody has to answer for;
* `Accounts` — the files that are there are accounted for;
* `Accounts.plant`, `Accounts.discard` — a harness comes to be held, or is not held any more;
* `Sound.apply`, `Sound.foldl` — one step and any number of steps keep the accounts;
* `handles_account_for_files` — what that means for the files.
-/

namespace EngineFuzz

open Randomness

section Writing

variable {path : Path} {before after : Session} {record : HarnessRecord} {source : String}
  {location : Location}

/-- A harness of a program was written, and that is all that was done to the files. -/
structure Instruments (path : Path) (before after : Session) (record : HarnessRecord)
    (source : String) (location : Location) : Prop where
  read : before.files.readText path = .ok source
  positions : record.positions = (HarnessLayout.ofSource source record.ids).render.positions
  plants : before.files.Plants record.path location
    (Text.bytesOf (HarnessLayout.ofSource source record.ids).render.text) after.files
  launches : after.launches = before.launches

/-- Writing a harness leaves the files alone and fails, or it plants a file. -/
theorem instrument_cases (path : Path) (session : Session) :
    (∃ error drawn, instrument path session = (.error error, drawn) ∧
      drawn.files = session.files ∧ drawn.launches = session.launches) ∨
    ∃ record after source location, instrument path session = (.ok record, after) ∧
      Instruments path session after record source location := by
  cases hread : session.files.readText path with
  | error fault => exact Or.inl ⟨_, _, instrument_of_readText_error hread, rfl, rfl⟩
  | ok source =>
    obtain ⟨content, hcontent, -⟩ := FileTree.exists_read_of_readText hread
    obtain ⟨directory, name, hleads, hcheck, -⟩ := FileTree.exists_of_read hcontent
    have hzero := (FileTree.checkPath_eq_ok_iff.mp hcheck).1
    have hinstrument := instrument_of_readText_ok hread
    simp only at hinstrument
    split at hinstrument
    · rename_i files hcreate
      have hplants := FileTree.plants_of_create (hleads.sibling _)
        (hleads.zero_notMem_sibling hzero _) hcreate
      exact Or.inr ⟨_, _, source, _, hinstrument, ⟨hread, rfl, hplants, rfl⟩⟩
    · exact Or.inl ⟨_, _, hinstrument, rfl, rfl⟩

end Writing

section Handles

/-- A harness that was written, and the text that was rendered for it. -/
structure WrittenHarness where
  record : HarnessRecord
  text : String

/-- The text that is rendered for a program with two markers. -/
def renderingOf (files : FileTree) (path : Path) (ids : HarnessIds) : String :=
  match files.readText path with
  | .ok source => (HarnessLayout.ofSource source ids).render.text
  | .error _ => ""

/-- A session, the handles that are live, and the harnesses that were kept. -/
structure Custody where
  session : Session
  live : List (HarnessFile × String)
  kept : List WrittenHarness

/-- The harnesses that somebody still wants. -/
def Custody.held (custody : Custody) : List WrittenHarness :=
  custody.live.map (fun (file, text) => ⟨file.record, text⟩) ++ custody.kept

/-- Something that is done with handles. -/
inductive HandleStep where
  /-- The harness of a program is written. -/
  | create (path : Path)
  /-- The handle at a place is given up, and its file stays. -/
  | keep (place : Nat)
  /-- The handle at a place is dropped. -/
  | drop (place : Nat)
  /-- Somebody else draws from the sources. -/
  | meanwhile (random entropy : Source)

/-- Carries out one step.  Nothing is done to a handle that is not there. -/
def HandleStep.apply (custody : Custody) : HandleStep → Custody
  | .create path =>
    match HarnessFile.create path custody.session with
    | (.ok file, session) =>
      let text := renderingOf custody.session.files path file.record.ids
      { custody with session, live := (file, text) :: custody.live }
    | (.error _, session) => { custody with session }
  | .keep place =>
    match custody.live[place]? with
    | none => custody
    | some (file, text) =>
      match file.keep custody.session with
      | (.ok record, session) =>
        ⟨session, custody.live.eraseIdx place, ⟨record, text⟩ :: custody.kept⟩
      | (.error _, session) => { custody with session, live := custody.live.eraseIdx place }
  | .drop place =>
    match custody.live[place]? with
    | none => custody
    | some (file, _) =>
      { custody with
        session := (file.drop custody.session).2
        live := custody.live.eraseIdx place }
  | .meanwhile random entropy =>
    { custody with session := { custody.session with random, entropy } }

/-- Carries out steps in order, beginning without handles. -/
def HandleStep.run (session : Session) (steps : List HandleStep) : Custody :=
  steps.foldl HandleStep.apply ⟨session, [], []⟩

end Handles

section Accounting

variable {start files after : FileTree} {held others : List WrittenHarness}
    {harness : WrittenHarness}
  {location : Location}

/-- The files are those of the start, and one more for each harness that is held. -/
structure Accounts (start files : FileTree) (held : List WrittenHarness) : Prop where
  base : files.base = start.base
  closed : files.closed = start.closed
  stands : ∀ h ∈ held, ∃ location, start.Admits h.record.path location ∧
    start.get? location = none ∧ files.get? location = some (.file (Text.bytesOf h.text))
  apart : held.Pairwise fun h other => ∀ location, start.Admits h.record.path location →
    ¬start.Admits other.record.path location
  others : ∀ location, (∀ h ∈ held, ¬start.Admits h.record.path location) →
    files.get? location = start.get? location

namespace Accounts

/-- In the beginning nothing has to be accounted for. -/
theorem nil (start : FileTree) : Accounts start start [] where
  base := rfl
  closed := rfl
  stands := by simp
  apart := List.Pairwise.nil
  others _ _ := rfl

/-- In which order harnesses are held does not matter. -/
theorem perm (h : Accounts start files held) (hperm : held.Perm others) :
    Accounts start files others where
  base := h.base
  closed := h.closed
  stands other hother := h.stands other (hperm.mem_iff.mpr hother)
  apart := by
    refine (hperm.pairwise_iff ?_).mp h.apart
    intro first second hapart location hsecond hfirst
    exact hapart location hfirst hsecond
  others location hnone :=
    h.others location fun other hother => hnone other (hperm.mem_iff.mp hother)

/-- Where a harness is held there is its file, and there was nothing at the start. -/
theorem get?_of_admits (h : Accounts start files held) (hmem : harness ∈ held)
    (hadmits : start.Admits harness.record.path location) :
    start.get? location = none ∧
      files.get? location = some (.file (Text.bytesOf harness.text)) := by
  obtain ⟨place, hplace, habsent, hfile⟩ := h.stands harness hmem
  rw [hplace.unique hadmits]
  exact ⟨habsent, hfile⟩

/-- The directories of the start are still there. -/
theorem keepsDirectories (h : Accounts start files held) : start.KeepsDirectories files where
  directory location hdirectory := by
    rw [h.others location ?_, hdirectory]
    intro harness hmem hadmits
    rw [(h.get?_of_admits hmem hadmits).1] at hdirectory
    cases hdirectory
  base := h.base
  closed := h.closed

/-- There are no directories that were not there at the start. -/
theorem keepsDirectories_start (h : Accounts start files held) : files.KeepsDirectories start where
  directory location hdirectory := by
    rw [← h.others location ?_, hdirectory]
    intro harness hmem hadmits
    rw [(h.get?_of_admits hmem hadmits).2] at hdirectory
    cases hdirectory
  base := h.base.symm
  closed := h.closed.symm

/-- A path of a harness leads to its file. -/
theorem resolve_eq (h : Accounts start files held) (hmem : harness ∈ held)
    (hadmits : start.Admits harness.record.path location) :
    files.resolve harness.record.path = .ok location :=
  (hadmits.transfer h.keepsDirectories).resolve_of_some (h.get?_of_admits hmem hadmits).2

/-- A file that is planted is accounted for by its harness. -/
theorem plant (h : Accounts start files held)
    (hplants : files.Plants harness.record.path location (Text.bytesOf harness.text) after) :
    Accounts start after (harness :: held) := by
  have hadmits : start.Admits harness.record.path location :=
    hplants.admits.transfer h.keepsDirectories_start
  -- the file was made where nothing stood, so no harness is held there, and nothing was there
  -- at the start
  have hfree : ∀ other ∈ held, ¬start.Admits other.record.path location := by
    intro other hmem hother
    have habsent := hplants.absent
    rw [(h.get?_of_admits hmem hother).2] at habsent
    cases habsent
  have hbefore : start.get? location = none := by
    rw [← h.others location hfree, hplants.absent]
  refine ⟨?_, ?_, ?_, ?_, ?_⟩
  · rw [hplants.eq_insert]
    exact h.base
  · rw [hplants.eq_insert]
    exact h.closed
  · intro other hmem
    rcases List.mem_cons.mp hmem with rfl | hmem
    · exact ⟨location, hadmits, hbefore, hplants.get?_location⟩
    · obtain ⟨place, hplace, habsent, hfile⟩ := h.stands other hmem
      refine ⟨place, hplace, habsent, ?_⟩
      rw [hplants.get?_eq, if_neg ?_, hfile]
      rintro rfl
      exact hfree other hmem hplace
  · refine List.Pairwise.cons ?_ h.apart
    intro other hmem place hplace hother
    rw [hadmits.unique hplace] at hother
    exact hfree other hmem hother
  · intro place hnone
    obtain ⟨hnew, hold⟩ := List.forall_mem_cons.mp hnone
    rw [hplants.get?_eq, if_neg ?_, h.others place hold]
    rintro rfl
    exact hnew hadmits

/-- The file of a harness that is held can be taken away, and then the others account for the
files. -/
theorem discard (h : Accounts start files (harness :: held)) :
    ∃ left, files.remove harness.record.path = .ok left ∧ Accounts start left held := by
  obtain ⟨location, hadmits, habsent, hfile⟩ := h.stands harness List.mem_cons_self
  have hne := hadmits.ne_nil
  obtain ⟨hapart, hrest⟩ := List.pairwise_cons.mp h.apart
  refine ⟨files.erase location, (hadmits.transfer h.keepsDirectories).remove_eq hfile,
    h.base, h.closed, ?_, hrest, ?_⟩
  · intro other hmem
    obtain ⟨place, hplace, hplaceAbsent, hplaceFile⟩ :=
      h.stands other (List.mem_cons_of_mem harness hmem)
    refine ⟨place, hplace, hplaceAbsent, ?_⟩
    rw [FileTree.get?_erase files hne, if_neg ?_, hplaceFile]
    rintro rfl
    exact hapart other hmem place hadmits hplace
  · intro place hnone
    rw [FileTree.get?_erase files hne]
    split
    · rename_i heq
      rw [heq, habsent]
    · rename_i hother
      refine h.others place (List.forall_mem_cons.mpr ⟨fun hplace => ?_, hnone⟩)
      exact hother (hadmits.unique hplace)

end Accounts

end Accounting

section Steps

variable {start : FileTree} {custody : Custody} {file : HarnessFile} {text : String} {place : Nat}

/-- Everything is accounted for, and every live handle would take its file away. -/
structure Sound (start : FileTree) (custody : Custody) : Prop where
  accounts : Accounts start custody.session.files custody.held
  armed : ∀ handle ∈ custody.live, handle.1.armed = true

/-- The harness of a live handle is held besides those of the other handles and those that were
kept. -/
theorem perm_held (h : custody.live[place]? = some (file, text)) :
    custody.held.Perm
      (⟨file.record, text⟩ :: { custody with live := custody.live.eraseIdx place }.held) := by
  obtain ⟨hlt, hget⟩ := List.getElem?_eq_some_iff.mp h
  have hperm := List.getElem_cons_eraseIdx_perm hlt
  rw [hget] at hperm
  exact (hperm.symm.map _).append_right custody.kept

/-- A handle that is given up leaves its file alone. -/
theorem HarnessFile.keep_eq (file : HarnessFile) (session : Session) :
    file.keep session = (.ok file.record, session) := rfl

/-- **One step keeps the accounts.** -/
theorem Sound.apply (h : Sound start custody) (step : HandleStep) :
    Sound start (step.apply custody) := by
  cases step with
  | create path =>
    rcases instrument_cases path custody.session with
      ⟨error, drawn, hfail, hfiles, -⟩ | ⟨record, after, source, location, hok, hwrites⟩
    · have hcreate : HarnessFile.create path custody.session = (.error error, drawn) :=
        Action.bind_of_error hfail
      simp only [HandleStep.apply, hcreate]
      refine ⟨?_, h.armed⟩
      rw [hfiles]
      exact h.accounts
    · have hcreate : HarnessFile.create path custody.session = (.ok ⟨record, true⟩, after) :=
        Action.bind_of_ok hok
      have htext : renderingOf custody.session.files path record.ids
          = (HarnessLayout.ofSource source record.ids).render.text := by
        rw [renderingOf, hwrites.read]
      simp only [HandleStep.apply, hcreate, htext]
      exact ⟨h.accounts.plant hwrites.plants, List.forall_mem_cons.mpr ⟨rfl, h.armed⟩⟩
  | keep place =>
    cases hget : custody.live[place]? with
    | none => simpa only [HandleStep.apply, hget] using h
    | some handle =>
      obtain ⟨file, text⟩ := handle
      -- the harness only changes from the live ones to those that were kept
      simp only [HandleStep.apply, hget, file.keep_eq]
      refine ⟨h.accounts.perm ?_,
        fun other hother => h.armed other (List.mem_of_mem_eraseIdx hother)⟩
      exact (perm_held hget).trans List.perm_middle.symm
  | drop place =>
    cases hget : custody.live[place]? with
    | none => simpa only [HandleStep.apply, hget] using h
    | some handle =>
      obtain ⟨file, text⟩ := handle
      -- a handle that is not armed would leave its file behind
      have harmed : file.armed = true := h.armed _ (List.mem_of_getElem? hget)
      obtain ⟨left, hremove, hleft⟩ := (h.accounts.perm (perm_held hget)).discard
      have hdrop : file.drop custody.session =
          (.ok (), { custody.session with files := left }) := by
        rw [HarnessFile.drop, if_pos harmed]
        simp only [EngineFuzz.discard, hremove]
      simp only [HandleStep.apply, hget, hdrop]
      exact ⟨hleft, fun other hother => h.armed other (List.mem_of_mem_eraseIdx hother)⟩
  | meanwhile random entropy => exact ⟨h.accounts, h.armed⟩

/-- **Any number of steps keep the accounts.** -/
theorem Sound.foldl (h : Sound start custody) (steps : List HandleStep) :
    Sound start (steps.foldl HandleStep.apply custody) := by
  induction steps generalizing custody with
  | nil => exact h
  | cons step steps ih => exact ih (h.apply step)

/-- A run that begins without handles keeps the accounts. -/
theorem sound_run (session : Session) (steps : List HandleStep) :
    Sound session.files (HandleStep.run session steps) :=
  Sound.foldl ⟨Accounts.nil session.files, by simp⟩ steps

end Steps

section Files

variable {start files : FileTree} {held : List WrittenHarness} {harness : WrittenHarness}

namespace Accounts

/-- The path of a harness led nowhere at the start, and leads to its text now. -/
theorem readText_eq (h : Accounts start files held) (hmem : harness ∈ held) :
    start.resolve harness.record.path = .error .noEntry ∧
      files.readText harness.record.path = .ok harness.text := by
  obtain ⟨location, hadmits, habsent, hfile⟩ := h.stands harness hmem
  refine ⟨?_, ?_⟩
  · rw [hadmits.resolve_eq, if_pos habsent]
  · exact (hadmits.transfer h.keepsDirectories).readText_eq hfile

/-- No two harnesses are at the same place. -/
theorem nodup_resolve (h : Accounts start files held) :
    (held.map fun harness => files.resolve harness.record.path).Nodup := by
  rw [List.nodup_iff_pairwise_ne, List.pairwise_map]
  refine h.apart.imp_of_mem fun {first second} hfirst hsecond hapart heq => ?_
  obtain ⟨place, hplace, -⟩ := h.stands first hfirst
  obtain ⟨other, hother, -⟩ := h.stands second hsecond
  rw [h.resolve_eq hfirst hplace, h.resolve_eq hsecond hother] at heq
  rw [← Except.ok.inj heq] at hother
  exact hapart place hplace hother

/-- What is there now was there at the start or is the file of a harness, and all of that is
there. -/
theorem get?_eq_some_iff (h : Accounts start files held) (location : Location) (entry : Entry) :
    files.get? location = some entry ↔
      start.get? location = some entry ∨ ∃ harness ∈ held,
        files.resolve harness.record.path = .ok location ∧
          entry = .file (Text.bytesOf harness.text) := by
  by_cases hheld : ∃ harness ∈ held, start.Admits harness.record.path location
  · obtain ⟨harness, hmem, hadmits⟩ := hheld
    obtain ⟨habsent, hfile⟩ := h.get?_of_admits hmem hadmits
    rw [hfile, habsent]
    constructor
    · intro heq
      exact Or.inr ⟨harness, hmem, h.resolve_eq hmem hadmits, (Option.some.inj heq).symm⟩
    · rintro (hstart | ⟨other, hother, hresolve, rfl⟩)
      · cases hstart
      · obtain ⟨place, hplace, -, hcontent⟩ := h.stands other hother
        rw [h.resolve_eq hother hplace] at hresolve
        rw [← hfile, ← Except.ok.inj hresolve, hcontent]
  · rw [h.others location fun harness hmem hadmits => hheld ⟨harness, hmem, hadmits⟩]
    refine ⟨Or.inl, ?_⟩
    rintro (hstart | ⟨harness, hmem, hresolve, -⟩)
    · exact hstart
    · obtain ⟨place, hplace, -⟩ := h.stands harness hmem
      rw [h.resolve_eq hmem hplace] at hresolve
      rw [Except.ok.inj hresolve] at hplace
      exact absurd ⟨harness, hmem, hplace⟩ hheld

end Accounts

/-- **Handles neither leak nor delete too much.**  Whatever is done with handles, and in
whatever order, every path of a harness whose handle is live or which was kept led nowhere at
the start and leads to the text that was rendered for it; no two of them are the same or lead to
the same place; and apart from these files everything is as it was at the start.  Once no handle
is live, the harnesses that were kept are all that has come. -/
theorem handles_account_for_files (session : Session) (steps : List HandleStep) :
    let custody := HandleStep.run session steps
    let files := custody.session.files
    (∀ harness ∈ custody.held, session.files.resolve harness.record.path = .error .noEntry ∧
      files.readText harness.record.path = .ok harness.text) ∧
    (custody.held.map fun harness => harness.record.path).Nodup ∧
    (custody.held.map fun harness => files.resolve harness.record.path).Nodup ∧
    (files.base = session.files.base ∧ files.closed = session.files.closed ∧
      ∀ location entry, files.get? location = some entry ↔
        session.files.get? location = some entry ∨ ∃ harness ∈ custody.held,
          files.resolve harness.record.path = .ok location ∧
            entry = .file (Text.bytesOf harness.text)) ∧
    (custody.live = [] → ∀ location entry, files.get? location = some entry ↔
      session.files.get? location = some entry ∨ ∃ harness ∈ custody.kept,
        files.resolve harness.record.path = .ok location ∧
          entry = .file (Text.bytesOf harness.text)) := by
  intro custody files
  have haccounts : Accounts session.files files custody.held := (sound_run session steps).accounts
  have hplaces := haccounts.nodup_resolve
  have hpaths : (custody.held.map fun harness => harness.record.path).Nodup := by
    rw [List.nodup_iff_pairwise_ne, List.pairwise_map] at hplaces ⊢
    exact hplaces.imp fun hne heq => hne (by rw [heq])
  refine ⟨fun harness hmem => haccounts.readText_eq hmem, hpaths, hplaces,
    ⟨haccounts.base, haccounts.closed, haccounts.get?_eq_some_iff⟩, fun hnone => ?_⟩
  have hkept : custody.held = custody.kept := by
    rw [Custody.held, hnone, List.map_nil, List.nil_append]
  rw [← hkept]
  exact haccounts.get?_eq_some_iff

/-- Of three harnesses the second is not written, since its name is taken; the first is kept,
and the third is dropped. -/
example :
    let program := Path.ofString "p.js"
    let files := (FileTree.ofBase [Text.bytesOf "w"]).insert [Text.bytesOf "w", program.bytes]
      (.file (Text.bytesOf "f();"))
    let steps := [.create program, .create program, .meanwhile (.listed []) (.listed [1]),
      .create program, .keep 1, .drop 0]
    let custody := HandleStep.run (Session.begin files (.listed []) (.listed [])) steps
    custody.live.length = 0 ∧ custody.kept.length = 1 ∧
      custody.session.files.entries.length = files.entries.length + 1 := by
  decide +kernel

end Files

end EngineFuzz
