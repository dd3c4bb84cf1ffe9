import EngineFuzz.Proofs.TakenFiles
import EngineFuzz.Workspace
import Mathlib.Logic.Relation
/-!
# Programs that are written

Before a program is written the directories above it are made, as far as they are missing, and
that may stop half-way.  What has come by then is always the same kind of thing: directories,
each at a place to which a path above the program leads.  If all goes well the program itself
comes last.

A path that leads to a directory leads there still when more directories have come and when a
file was written, so what is known of the first directories is not lost when the later ones are
made.

* `Paves` — nothing but directories has come, and each of them was asked for;
* `paves_makeAncestors` — what making a directory and those above it does, also if it fails;
* `Furnishes` — a program and directories above it have come, or some of that;
* `writeProgram_eq` — the stages of writing a program, each of which may be the last;
* `writes_writeProgram` — what writing a program does, also if it fails.
-/

namespace EngineFuzz

open Randomness

/-- One path is another without its last component, or without the last few. -/
def Path.IsAbove (above path : Path) : Prop :=
  Relation.TransGen (fun lower upper : Path => lower.parent? = some upper) path above

namespace FileTree

open Text (Bytes)
open EngineFuzz.Path (segmentsOf IsName)

section Paving

variable {tree middle after : FileTree} {path : Path} {asked wider : Path → Prop}

/-- Nothing has come but directories, each at a place to which one of some paths leads. -/
structure Paves (tree after : FileTree) (asked : Path → Prop) : Prop where
  base : after.base = tree.base
  closed : after.closed = tree.closed
  entries : ∀ location, after.get? location = tree.get? location ∨
    tree.get? location = none ∧ after.get? location = some .directory ∧
      ∃ above, asked above ∧ after.resolve above = .ok location

/-- Nothing has come. -/
theorem Paves.refl (tree : FileTree) (asked : Path → Prop) : tree.Paves tree asked :=
  ⟨rfl, rfl, fun _ => Or.inl rfl⟩

/-- What was asked for was asked for among other things. -/
theorem Paves.mono (h : tree.Paves after asked) (himp : ∀ above, asked above → wider above) :
    tree.Paves after wider where
  base := h.base
  closed := h.closed
  entries location := by
    rcases h.entries location with hsame | ⟨habsent, hnew, above, hasked, hresolve⟩
    · exact Or.inl hsame
    · exact Or.inr ⟨habsent, hnew, above, himp above hasked, hresolve⟩

/-- When directories come no directory is lost. -/
theorem Paves.keepsDirectories (h : tree.Paves after asked) : tree.KeepsDirectories after where
  directory location hdirectory := by
    rcases h.entries location with hsame | ⟨-, hnew, -⟩
    · rw [hsame, hdirectory]
    · exact hnew
  base := h.base
  closed := h.closed

/-- Directories may come one after the other. -/
theorem Paves.trans (h : tree.Paves middle asked) (hafter : middle.Paves after asked) :
    tree.Paves after asked where
  base := hafter.base.trans h.base
  closed := hafter.closed.trans h.closed
  entries location := by
    rcases h.entries location with hsame | ⟨habsent, hnew, above, hasked, hresolve⟩
    · rw [← hsame]
      exact hafter.entries location
    · refine Or.inr ⟨habsent, hafter.keepsDirectories.directory location hnew, above, hasked, ?_⟩
      exact hafter.keepsDirectories.resolve hresolve hnew

/-- Slashes at the end of a path lead nowhere else. -/
theorem walk_of_idle {here : Location} {segments : List Bytes}
    (hidle : ∀ s ∈ segments, Path.isIdle s = true) (hhere : tree.get? here = some .directory) :
    tree.walk here segments = .ok here := by
  induction segments with
  | nil => rfl
  | cons first others ih =>
    obtain ⟨hfirst, hothers⟩ := List.forall_mem_cons.mp hidle
    exact walk_cons_eq_ok_iff.mpr
      ⟨here, step_eq_ok_iff.mpr ⟨hhere, Or.inl ⟨hfirst, rfl⟩⟩, ih hothers⟩

/-- Under a name there is what stands in the directory, if the name is not too long. -/
theorem child?_eq_ok_iff {directory : Location} {name : Bytes} {found : Option Entry} :
    tree.child? directory name = .ok found ↔
      name.length ≤ maxName ∧ found = tree.get? (directory ++ [name]) := by
  by_cases hlong : maxName < name.length
  · simp [child?, hlong, Nat.not_le.mpr hlong]
  · simp [child?, hlong, Nat.le_of_not_lt hlong, eq_comm]

/-- A path leads to what is put where it would make a name: to a directory in any case, and to a
file if no slash follows the name. -/
theorem resolve_insert {directory : Location} {name : Bytes} {slashed : Bool} {entry : Entry}
    (htarget : tree.target path = .ok (directory, .name name slashed))
    (hshort : name.length ≤ maxName) (hfree : tree.get? (directory ++ [name]) ≠ some .directory)
    (hentry : slashed = true → entry = .directory) :
    (tree.insert (directory ++ [name]) entry).resolve path = .ok (directory ++ [name]) := by
  obtain ⟨hcheck, hname, hdirectory, before, slashes, hsegments, hempty, hnone, hwalk⟩ :=
    exists_of_target htarget
  have hne : directory ++ [name] ≠ [] :=
    List.append_ne_nil_of_right_ne_nil directory (List.cons_ne_nil name [])
  have hkeeps := keepsDirectories_insert hne hfree entry
  have hnew : (tree.insert (directory ++ [name]) entry).get? (directory ++ [name]) =
      some entry := by
    rw [get?_insert tree hne, if_pos rfl]
  refine bind_eq_ok_iff.mpr ⟨(), hcheck, ?_⟩
  rw [hsegments]
  refine walk_append_eq_ok_iff.mpr ⟨directory, hkeeps.walk hwalk hdirectory, ?_⟩
  refine walk_cons_eq_ok_iff.mpr ⟨directory ++ [name], ?_, ?_⟩
  · refine step_eq_ok_iff.mpr ⟨hkeeps.directory _ hdirectory,
      Or.inr (Or.inr ⟨hname, hshort, rfl, ?_⟩)⟩
    rw [hnew]
    exact Option.some_ne_none entry
  · cases slashed with
    | false =>
      rw [hnone rfl]
      rfl
    | true =>
      refine walk_of_idle (fun s hs => ?_) (by rw [hnew, hentry rfl])
      rw [hempty s hs]
      rfl

/-- A directory that is made is the one to which the path leads then. -/
theorem paves_of_makeDirectory (h : tree.makeDirectory path = .ok after) :
    tree.Paves after (· = path) := by
  obtain ⟨⟨directory, last⟩, htarget, hmade⟩ := bind_eq_ok_iff.mp h
  cases last with
  | dots => cases hmade
  | name name slashed =>
    obtain ⟨found, hchild, hadded⟩ := bind_eq_ok_iff.mp hmade
    obtain ⟨hshort, hfound⟩ := child?_eq_ok_iff.mp hchild
    cases found with
    | some entry => cases hadded
    | none =>
      have hne : directory ++ [name] ≠ [] :=
        List.append_ne_nil_of_right_ne_nil directory (List.cons_ne_nil name [])
      have hfree : tree.get? (directory ++ [name]) ≠ some .directory := by
        rw [← hfound]
        exact (Option.some_ne_none _).symm
      have hafter : after = tree.insert (directory ++ [name]) .directory := by
        simp only [addName] at hadded
        split at hadded
        · cases hadded
        · exact (Except.ok.inj hadded).symm
      have hresolve := @resolve_insert _ _ _ _ _ .directory htarget hshort hfree fun _ => rfl
      rw [hafter]
      refine ⟨rfl, rfl, fun location => ?_⟩
      rw [get?_insert tree hne]
      split
      · rename_i heq
        rw [heq]
        exact Or.inr ⟨hfound.symm, rfl, path, rfl, hresolve⟩
      · exact Or.inl rfl

/-- The last attempt to make a directory makes it or nothing. -/
theorem paves_again (tree : FileTree) (path : Path) :
    tree.Paves (makeAncestors.again path tree).1 (· = path) := by
  unfold makeAncestors.again
  split
  · rename_i made hmade
    exact paves_of_makeDirectory hmade
  · exact Paves.refl tree _

/-- **Making a directory and those above it** adds directories that were asked for, whether it
is done in the end or not. -/
theorem paves_makeAncestors (tree : FileTree) (path : Path) (depth : Nat) :
    tree.Paves (tree.makeAncestors path depth).1 fun above => above = path ∨
      above.IsAbove path := by
  induction depth generalizing tree path with
  | zero => exact Paves.refl tree _
  | succ depth ih =>
    unfold makeAncestors
    split
    · rename_i made hmade
      exact (paves_of_makeDirectory hmade).mono fun _ => Or.inl
    · split
      · exact Paves.refl tree _
      · rename_i parent hparent
        split
        · exact (paves_again tree path).mono fun _ => Or.inl
        · have habove : tree.Paves (tree.makeAncestors parent depth).1
              fun above => above = path ∨ above.IsAbove path := by
            refine (ih tree parent).mono ?_
            rintro above (rfl | hhigher)
            · exact Or.inr (Relation.TransGen.single hparent)
            · exact Or.inr (Relation.TransGen.head hparent hhigher)
          split
          · rename_i above fault hfail
            rw [hfail] at habove
            exact habove
          · rename_i above hdone
            rw [hdone] at habove
            exact habove.trans ((paves_again above path).mono fun _ => Or.inl)
    · exact Paves.refl tree _

/-- Making the directories above a path adds no others. -/
theorem paves_makeParent (tree : FileTree) (path : Path) :
    tree.Paves (tree.makeParent path).1 fun above => above.IsAbove path := by
  unfold makeParent
  split
  · rename_i parent hparent
    unfold makeDirectories
    split
    · exact Paves.refl tree _
    · refine (paves_makeAncestors tree parent _).mono ?_
      rintro above (rfl | hhigher)
      · exact Relation.TransGen.single hparent
      · exact Relation.TransGen.head hparent hhigher
  · exact Paves.refl tree _

end Paving

section Furnishing

variable {start middle after : FileTree} {program : Path} {IsSource : String → Prop}
    {source : String}

/-- Nothing has come but directories above a program, and perhaps the program, with one of some
texts. -/
structure Furnishes (start after : FileTree) (program : Path) (IsSource : String → Prop) :
    Prop where
  base : after.base = start.base
  closed : after.closed = start.closed
  entries : ∀ location, after.get? location = start.get? location ∨
    (start.get? location = none ∧ after.get? location = some .directory ∧
      ∃ above, above.IsAbove program ∧ after.resolve above = .ok location) ∨
    start.get? location ≠ some .directory ∧ after.resolve program = .ok location ∧
      ∃ source, IsSource source ∧ after.get? location = some (.file (Text.bytesOf source))

/-- As long as the program is not written there are directories alone. -/
theorem Furnishes.of_paves (h : start.Paves after fun above => above.IsAbove program) :
    start.Furnishes after program IsSource where
  base := h.base
  closed := h.closed
  entries location := (h.entries location).imp id Or.inl

/-- A file that is written stands where the path leads then, and nothing else changes. -/
theorem exists_of_write {tree : FileTree} {path : Path} {content : Bytes}
    (h : tree.write path content = .ok after) :
    ∃ location, location ≠ [] ∧ tree.get? location ≠ some .directory ∧
      after = tree.insert location (.file content) ∧ after.resolve path = .ok location := by
  obtain ⟨⟨directory, last⟩, htarget, hwritten⟩ := bind_eq_ok_iff.mp h
  cases last with
  | dots => cases hwritten
  | name name slashed =>
    cases slashed with
    | true => cases hwritten
    | false =>
      obtain ⟨found, hchild, hadded⟩ := bind_eq_ok_iff.mp hwritten
      obtain ⟨hshort, hfound⟩ := child?_eq_ok_iff.mp hchild
      have hplace : found ≠ some .directory ∧
          after = tree.insert (directory ++ [name]) (.file content) := by
        cases found with
        | none =>
          simp only [addName] at hadded
          split at hadded
          · cases hadded
          · exact ⟨(Option.some_ne_none _).symm, (Except.ok.inj hadded).symm⟩
        | some entry =>
          cases entry with
          | directory => cases hadded
          | file old => exact ⟨by simp, (Except.ok.inj hadded).symm⟩
      obtain ⟨hfree, rfl⟩ := hplace
      rw [hfound] at hfree
      have hentry : false = true → Entry.file content = .directory := by
        intro h
        cases h
      exact ⟨directory ++ [name],
        List.append_ne_nil_of_right_ne_nil directory (List.cons_ne_nil name []), hfree, rfl,
        resolve_insert htarget hshort hfree hentry⟩

/-- When the program is written the directories are there still. -/
theorem Furnishes.of_write (h : start.Paves middle fun above => above.IsAbove program)
    (hwrite : middle.write program (Text.bytesOf source) = .ok after) (hsource : IsSource source) :
    start.Furnishes after program IsSource := by
  obtain ⟨location, hne, hfree, hafter, hresolve⟩ := exists_of_write hwrite
  have hkeeps : middle.KeepsDirectories after := by
    rw [hafter]
    exact keepsDirectories_insert hne hfree _
  refine ⟨hkeeps.base.trans h.base, hkeeps.closed.trans h.closed, fun other => ?_⟩
  by_cases heq : other = location
  · have hnew : after.get? location = some (.file (Text.bytesOf source)) := by
      rw [hafter, get?_insert middle hne, if_pos rfl]
    rw [heq]
    refine Or.inr (Or.inr ⟨fun hdirectory => ?_, hresolve, source, hsource, hnew⟩)
    exact hfree (h.keepsDirectories.directory location hdirectory)
  · have hsame : after.get? other = middle.get? other := by
      rw [hafter, get?_insert middle hne, if_neg heq]
    rw [hsame]
    rcases h.entries other with hold | ⟨habsent, hnew, above, habove, hleads⟩
    · exact Or.inl hold
    · exact Or.inr (Or.inl ⟨habsent, hnew, above, habove, hkeeps.resolve hleads hnew⟩)

end Furnishing

end FileTree

section Programs

/-- A program of a shape that can be synthesized from a seed. -/
def ProgramShape.Yields (shape : ProgramShape) (random : Source) (source : String) : Prop :=
  ∃ program, ((Program.synthesize .standard shape).run random).1 = .ok program ∧
    source = program.source

/-- What may come of writing a program: no engine is started, and nothing is added but the
program and directories above it. -/
structure LoadedConfig.Writes (loaded : LoadedConfig) (session : Session)
    (outcome : Except Error Path × Session) : Prop where
  path : ∀ path, outcome.1 = .ok path → path = loaded.programPath
  launches : outcome.2.launches = session.launches
  files : session.files.Furnishes outcome.2.files loaded.programPath
    (loaded.config.shape.Yields session.random)

/-- If writing a program fails there are at most directories. -/
theorem LoadedConfig.Writes.of_error {loaded : LoadedConfig} {session after : Session}
    {error : Error} (hlaunches : after.launches = session.launches)
    (hpaves : session.files.Paves after.files fun above => above.IsAbove loaded.programPath) :
    loaded.Writes session (.error error, after) where
  path _ h := nomatch h
  launches := hlaunches
  files := .of_paves hpaves

/-- **Writing a program, stage by stage.** -/
theorem LoadedConfig.writeProgram_eq (loaded : LoadedConfig) (force : Bool) (session : Session) :
    loaded.writeProgram force session =
      if session.files.holds loaded.programPath && !force then
        (.error (.io (.wouldOverwrite loaded.programPath)), session)
      else match (Program.synthesize .standard loaded.config.shape).run session.random with
        | (.error overload, random) => (.error (.overload overload), { session with random })
        | (.ok program, random) =>
          match session.files.makeParent loaded.programPath with
          | (files, .error fault) => (.error (.io fault), { session with random, files })
          | (files, .ok ()) =>
            match files.write loaded.programPath (Text.bytesOf program.source) with
            | .error fault => (.error (.io fault), { session with random, files })
            | .ok files => (.ok loaded.programPath, { session with random, files }) := by
  have hasked : Action.ask (fun files => files.holds loaded.programPath) session
      = (.ok (session.files.holds loaded.programPath), session) := rfl
  rw [LoadedConfig.writeProgram, Action.bind_of_ok hasked]
  split
  · rfl
  change (Action.synthesize _ >>= _) session = _
  cases hrun : (Program.synthesize .standard loaded.config.shape).run session.random with
  | mk synthesized random =>
    cases synthesized with
    | error overload =>
      refine Action.bind_of_error ?_
      simp only [Action.synthesize, hrun]
    | ok program =>
      have hsynthesize :
          Action.synthesize (Program.synthesize .standard loaded.config.shape) session
          = (.ok program, { session with random }) := by
        simp only [Action.synthesize, hrun]
      rw [Action.bind_of_ok hsynthesize]
      cases hmade : session.files.makeParent loaded.programPath with
      | mk files made =>
        cases made with
        | error fault => exact Action.bind_of_error (Action.changeUntil_of_error hmade)
        | ok _ =>
          rw [Action.bind_of_ok (Action.changeUntil_of_ok hmade)]
          cases hwrite : files.write loaded.programPath (Text.bytesOf program.source) with
          | error fault =>
            have hchange : Action.change
                (fun files => files.write loaded.programPath (Text.bytesOf program.source))
                { session with random, files } =
                  (.error (.io fault), { session with random, files }) :=
              Action.change_of_error hwrite
            rw [Action.bind_of_error hchange]
            simp only [hwrite]
          | ok written =>
            have hchange : Action.change
                (fun files => files.write loaded.programPath (Text.bytesOf program.source))
                { session with random, files } =
                  (.ok (), { session with random, files := written }) :=
              Action.change_of_ok hwrite
            rw [Action.bind_of_ok hchange]
            simp only [hwrite]
            rfl

/-- A program is not written where something is already, unless by force. -/
theorem LoadedConfig.writeProgram_of_holds {loaded : LoadedConfig} {session : Session}
    (h : session.files.holds loaded.programPath = true) :
    loaded.writeProgram false session
      = (.error (.io (.wouldOverwrite loaded.programPath)), session) := by
  rw [writeProgram_eq, h]
  rfl

/-- **Writing a program** adds nothing else, whether it succeeds or not. -/
theorem LoadedConfig.writes_writeProgram (loaded : LoadedConfig) (force : Bool)
    (session : Session) : loaded.Writes session (loaded.writeProgram force session) := by
  have hpaves := FileTree.paves_makeParent session.files loaded.programPath
  rw [writeProgram_eq]
  split
  · exact .of_error rfl (.refl session.files _)
  split
  · exact .of_error rfl (.refl session.files _)
  rename_i program random hrun
  split
  · rename_i files fault hmade
    rw [hmade] at hpaves
    exact .of_error rfl hpaves
  rename_i files hmade
  rw [hmade] at hpaves
  split
  · exact .of_error rfl hpaves
  · rename_i written hwrite
    exact ⟨fun path h => (Except.ok.inj h).symm, rfl,
      .of_write hpaves hwrite ⟨program, by rw [hrun], rfl⟩⟩

end Programs

end EngineFuzz
