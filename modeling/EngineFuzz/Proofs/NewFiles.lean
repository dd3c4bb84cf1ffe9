import EngineFuzz.FileTree
import EngineFuzz.Proofs.PathSegments
/-!
# Files that are made

Making a file either fails or adds one entry to the tree.  Which of the two it is can be told
from the directory, the name and the length of the path; and if it adds one, every path that led
to a file before leads there still.

A path leads to a file only if its last segment is a name, for all other segments lead to
directories.  The segments before it lead to the directory in which the file stands.

* `step_eq_ok_iff` — what a segment may do;
* `Extends.walk` — what a bigger tree does to a walk: nothing;
* `exists_of_read` — where a file stands that can be read;
* `refusal?`, `create_eq` — making a file, as a decision about directory, name and path;
* `Gains` — one tree is another with one more file.
-/

namespace EngineFuzz.FileTree

open Text (Bytes)
open EngineFuzz.Path (segmentsOf IsName)

section Walking

variable {tree bigger : FileTree} {here there : Location} {segment : Bytes}
  {segments : List Bytes}

/-- A segment leads from a directory to the same directory, to its parent, or to what stands in it
under a name. -/
theorem step_eq_ok_iff : tree.step here segment = .ok there ↔
    tree.get? here = some .directory ∧
      (Path.isIdle segment = true ∧ there = here ∨
        segment = [Path.dot, Path.dot] ∧ there = here.dropLast ∧
          tree.get? here.dropLast = some .directory ∨
        IsName segment ∧ segment.length ≤ maxName ∧ there = here ++ [segment] ∧
          tree.get? (here ++ [segment]) ≠ none) := by
  by_cases hhere : tree.get? here ≠ some .directory
  · simp [step, hhere]
  have hdirectory : tree.get? here = some .directory := Decidable.not_not.mp hhere
  by_cases hidle : Path.isIdle segment = true
  · have hdots : segment ≠ [Path.dot, Path.dot] := by
      rintro rfl
      exact absurd hidle (by decide)
    simp [step, hdirectory, hidle, hdots, IsName, @eq_comm _ there]
  by_cases hdots : segment = [Path.dot, Path.dot]
  · subst hdots
    by_cases hparent : tree.get? here.dropLast = some .directory <;>
      simp [step, hdirectory, hidle, hparent, IsName, @eq_comm _ there]
  by_cases hlong : maxName < segment.length
  · simp [step, hdirectory, hidle, hdots, hlong, Nat.not_le.mpr hlong]
  by_cases hentry : tree.get? (here ++ [segment]) = none <;>
    simp [step, hdirectory, hidle, hdots, hlong, hentry, IsName, Nat.le_of_not_lt hlong,
      @eq_comm _ there]

/-- What comes after another thing succeeds only if that one does. -/
theorem bind_eq_ok_iff {α β : Type} {first : Except SystemFault α} {next : α → Except SystemFault β}
    {b : β} : (first >>= next) = .ok b ↔ ∃ a, first = .ok a ∧ next a = .ok b := by
  cases first with
  | error fault => simp [bind, Except.bind]
  | ok a => simp [bind, Except.bind]

/-- A walk begins with a step. -/
theorem walk_cons_eq_ok_iff {others : List Bytes} : tree.walk here (segment :: others) = .ok there ↔
    ∃ next, tree.step here segment = .ok next ∧ tree.walk next others = .ok there := by
  rw [walk, List.foldlM_cons, bind_eq_ok_iff]

/-- Walking along segments is walking along some of them and then along the others. -/
theorem walk_append_eq_ok_iff {others : List Bytes} :
    tree.walk here (segments ++ others) = .ok there ↔
      ∃ next, tree.walk here segments = .ok next ∧ tree.walk next others = .ok there := by
  rw [walk, List.foldlM_append, bind_eq_ok_iff]

/-- A walk of one segment is a step. -/
theorem walk_singleton (tree : FileTree) (here : Location) (segment : Bytes) :
    tree.walk here [segment] = tree.step here segment := by
  rw [walk, List.foldlM_cons]
  exact bind_pure _

/-- Idle segments lead nowhere else. -/
theorem eq_of_walk_idle (hidle : ∀ s ∈ segments, Path.isIdle s = true)
    (h : tree.walk here segments = .ok there) : there = here := by
  induction segments generalizing here with
  | nil => exact (Except.ok.inj h).symm
  | cons first others ih =>
    obtain ⟨hfirst, hothers⟩ := List.forall_mem_cons.mp hidle
    obtain ⟨next, hstep, hwalk⟩ := walk_cons_eq_ok_iff.mp h
    rw [ih hothers hwalk]
    obtain ⟨-, ⟨-, rfl⟩ | ⟨rfl, -, -⟩ | ⟨hname, -⟩⟩ := step_eq_ok_iff.mp hstep
    · rfl
    · exact absurd hfirst (by decide)
    · rw [hname.1] at hfirst
      exact absurd hfirst Bool.false_ne_true

/-- One tree has everything that another has. -/
def Extends (bigger tree : FileTree) : Prop :=
  ∀ location entry, tree.get? location = some entry → bigger.get? location = some entry

/-- A segment leads in a bigger tree where it did before. -/
theorem Extends.step (hext : Extends bigger tree) (h : tree.step here segment = .ok there) :
    bigger.step here segment = .ok there := by
  rw [step_eq_ok_iff] at h ⊢
  obtain ⟨hhere, hcases⟩ := h
  refine ⟨hext _ _ hhere, ?_⟩
  rcases hcases with hidle | ⟨hdots, hthere, hparent⟩ | ⟨hname, hlong, hthere, hentry⟩
  · exact Or.inl hidle
  · exact Or.inr (Or.inl ⟨hdots, hthere, hext _ _ hparent⟩)
  · obtain ⟨entry, hsome⟩ := Option.ne_none_iff_exists'.mp hentry
    refine Or.inr (Or.inr ⟨hname, hlong, hthere, ?_⟩)
    rw [hext _ _ hsome]
    exact Option.some_ne_none entry

/-- Segments lead in a bigger tree where they did before. -/
theorem Extends.walk (hext : Extends bigger tree) (h : tree.walk here segments = .ok there) :
    bigger.walk here segments = .ok there := by
  induction segments generalizing here with
  | nil => exact h
  | cons first others ih =>
    obtain ⟨next, hstep, hwalk⟩ := walk_cons_eq_ok_iff.mp h
    exact walk_cons_eq_ok_iff.mpr ⟨next, hext.step hstep, ih hwalk⟩

end Walking

section Places

variable {tree : FileTree} {path : Path} {before : List Bytes} {name content : Bytes}
  {directory : Location}

/-- A path leads through a directory of a tree to a name, which need not be there. -/
structure LeadsTo (tree : FileTree) (path : Path) (directory : Location) (name : Bytes) : Prop where
  isName : IsName name
  segments : ∃ before, segmentsOf path.bytes = before ++ [name] ∧
    tree.walk (tree.start path) before = .ok directory
  isDirectory : tree.get? directory = some .directory

/-- A path that the system can be asked about has no zero octet, is not empty and not too long. -/
theorem checkPath_eq_ok_iff : checkPath path = .ok () ↔
    0 ∉ path.bytes ∧ path.bytes ≠ [] ∧ path.bytes.length < pathLimit := by
  unfold checkPath
  by_cases hzero : 0 ∈ path.bytes
  · simp [hzero]
  by_cases hnil : path.bytes = []
  · simp [hnil]
  by_cases hlong : pathLimit ≤ path.bytes.length
  · simp [hzero, hnil, hlong, Nat.not_lt.mpr hlong]
  · simp [hzero, hnil, hlong, Nat.lt_of_not_le hlong]

/-- A path leads on from the directory by its last segment. -/
theorem LeadsTo.resolve (h : tree.LeadsTo path directory name) (hcheck : checkPath path = .ok ()) :
    tree.resolve path = tree.step directory name := by
  obtain ⟨before, hsegments, hwalk⟩ := h.segments
  calc tree.resolve path
      = tree.walk (tree.start path) (before ++ [name]) := by
        rw [FileTree.resolve, hcheck, hsegments]
        rfl
    _ = (tree.walk (tree.start path) before >>= fun there => tree.walk there [name]) :=
        List.foldlM_append
    _ = tree.walk directory [name] := by
        rw [hwalk]
        rfl
    _ = tree.step directory name := walk_singleton tree directory name

/-- Something to which a path leads on stands under its last segment, which is not too long. -/
theorem LeadsTo.of_resolve {location : Location} (h : tree.LeadsTo path directory name)
    (hcheck : checkPath path = .ok ()) (hresolve : tree.resolve path = .ok location) :
    name.length ≤ maxName ∧ location = directory ++ [name] := by
  rw [h.resolve hcheck] at hresolve
  obtain ⟨-, ⟨hidle, -⟩ | ⟨hup, -⟩ | ⟨-, hshort, rfl, -⟩⟩ := step_eq_ok_iff.mp hresolve
  · rw [h.isName.1] at hidle
    cases hidle
  · exact absurd hup h.isName.2
  · exact ⟨hshort, rfl⟩

/-- A path leads to what stands under its last segment, if anything does. -/
theorem LeadsTo.resolve_eq (h : tree.LeadsTo path directory name) (hcheck : checkPath path = .ok ())
    (hshort : name.length ≤ maxName) :
    tree.resolve path = if tree.get? (directory ++ [name]) = none then .error .noEntry
      else .ok (directory ++ [name]) := by
  rw [h.resolve hcheck]
  simp [step, h.isDirectory, h.isName.1, h.isName.2, Nat.not_lt.mpr hshort]

/-- The file to which a path leads can be read. -/
theorem read_of_resolve {location : Location} (hresolve : tree.resolve path = .ok location)
    (hfile : tree.get? location = some (.file content)) : tree.read path = .ok content := by
  simp [read, hresolve, hfile, bind, Except.bind, pure, Except.pure]

/-- A file that can be read stands under a name, in the directory to which the segments before the
name lead. -/
theorem exists_of_read (h : tree.read path = .ok content) :
    ∃ directory name, tree.LeadsTo path directory name ∧ checkPath path = .ok () ∧
      tree.resolve path = .ok (directory ++ [name]) ∧
      tree.get? (directory ++ [name]) = some (.file content) := by
  obtain ⟨location, hresolve, hfound⟩ := bind_eq_ok_iff.mp h
  have hfile : tree.get? location = some (.file content) := by
    split at hfound
    · rename_i found hentry
      rw [hentry, Except.ok.inj hfound]
    · cases hfound
    · cases hfound
  obtain ⟨_, hcheck, hwalk⟩ := bind_eq_ok_iff.mp hresolve
  obtain hnil | ⟨before, last, hsegments⟩ := List.eq_nil_or_concat (segmentsOf path.bytes)
  · exact absurd hnil (Path.segmentsOf_ne_nil _)
  rw [List.concat_eq_append] at hsegments
  rw [hsegments] at hwalk
  obtain ⟨directory, hbefore, hlast⟩ := walk_append_eq_ok_iff.mp hwalk
  rw [walk_singleton] at hlast
  -- a segment that is no name leads to a directory, and there is a file
  obtain ⟨hdirectory, ⟨-, rfl⟩ | ⟨-, rfl, hparent⟩ | ⟨hname, -, rfl, -⟩⟩ := step_eq_ok_iff.mp hlast
  · rw [hfile] at hdirectory
    cases hdirectory
  · rw [hfile] at hparent
    cases hparent
  · exact ⟨directory, last, ⟨hname, ⟨before, hsegments, hbefore⟩, hdirectory⟩, hcheck,
      hresolve, hfile⟩

/-- A text is read from a file whose content is that text. -/
theorem exists_read_of_readText {source : String} (h : tree.readText path = .ok source) :
    ∃ content, tree.read path = .ok content ∧ Text.strict content = some source := by
  obtain ⟨content, hread, htext⟩ := bind_eq_ok_iff.mp h
  refine ⟨content, hread, ?_⟩
  split at htext
  · rename_i text hstrict
    rw [hstrict, Except.ok.inj htext]
  · cases htext

/-- A file that holds a text is read as that text. -/
theorem readText_of_read {text : String} (h : tree.read path = .ok (Text.bytesOf text)) :
    tree.readText path = .ok text := by
  refine bind_eq_ok_iff.mpr ⟨_, h, ?_⟩
  rw [Text.strict_bytesOf]
  rfl

/-- The place in which a path would make a file. -/
theorem LeadsTo.target (h : tree.LeadsTo path directory name) (hcheck : checkPath path = .ok ()) :
    tree.target path = .ok (directory, .name name false) := by
  obtain ⟨before, hsegments, hwalk⟩ := h.segments
  have hne : name ≠ [] := by
    rintro rfl
    exact absurd h.isName.1 (by decide)
  have hdot : name ≠ [Path.dot] := by
    rintro rfl
    exact absurd h.isName.1 (by decide)
  simp [FileTree.target, hcheck, hsegments, hne, hwalk, h.isDirectory, hdot, h.isName.2, bind,
    Except.bind, pure, Except.pure]

end Places

section Making

variable {tree after : FileTree} {path : Path} {name content : Bytes}
    {directory location : Location}

/-- What keeps a path from making a new file of a name in a directory: the path or the name is too
long, something stands there already, or the directory is closed. -/
def refusal? (tree : FileTree) (path : Path) (directory : Location) (name : Bytes) :
    Option SystemFault :=
  if pathLimit ≤ path.bytes.length ∨ maxName < name.length then some .nameTooLong
  else if (tree.get? (directory ++ [name])).isSome then some .exists
  else if tree.isClosed directory then some .permissionDenied
  else none

/-- If nothing keeps a file from being made, the system can be asked about its path, its name is
free and not too long. -/
theorem of_refusal?_eq_none (h : tree.refusal? path directory name = none) :
    path.bytes.length < pathLimit ∧ name.length ≤ maxName ∧
      tree.get? (directory ++ [name]) = none ∧ tree.isClosed directory = false := by
  unfold refusal? at h
  split at h
  · cases h
  · rename_i hlengths
    rw [not_or, Nat.not_le, Nat.not_lt] at hlengths
    split at h
    · cases h
    · rename_i hfree
      split at h
      · cases h
      · rename_i hopen
        exact ⟨hlengths.1, hlengths.2, Option.not_isSome_iff_eq_none.mp hfree,
          Bool.eq_false_iff.mpr hopen⟩

/-- A path that leads to a name is not empty. -/
theorem LeadsTo.bytes_ne_nil (h : tree.LeadsTo path directory name) : path.bytes ≠ [] := by
  intro hnil
  obtain ⟨before, hsegments, -⟩ := h.segments
  rw [hnil] at hsegments
  have hname : name = [] := by
    have hlast := congrArg List.getLast? hsegments
    simpa [segmentsOf] using hlast.symm
  exact absurd h.isName.1 (by rw [hname]; decide)

/-- A file is made unless something keeps it from being made. -/
theorem create_eq (h : tree.LeadsTo path directory name) (hzero : 0 ∉ path.bytes)
    (content : Bytes) : tree.create path content = match tree.refusal? path directory name with
      | some fault => .error fault
      | none => .ok (tree.insert (directory ++ [name]) (.file content)) := by
  by_cases hlong : pathLimit ≤ path.bytes.length
  · have hcheck : checkPath path = .error .nameTooLong := by
      simp [checkPath, hzero, h.bytes_ne_nil, hlong]
    simp [create, FileTree.target, refusal?, hcheck, hlong, bind, Except.bind]
  have hcheck : checkPath path = .ok () :=
    checkPath_eq_ok_iff.mpr ⟨hzero, h.bytes_ne_nil, Nat.lt_of_not_le hlong⟩
  by_cases hname : maxName < name.length
  · simp [create, h.target hcheck, child?, refusal?, hlong, hname, bind, Except.bind]
  cases hentry : tree.get? (directory ++ [name]) with
  | some entry =>
    simp [create, h.target hcheck, child?, refusal?, hlong, hname, hentry, bind, Except.bind, throw,
      throwThe, MonadExceptOf.throw]
  | none =>
    by_cases hclosed : tree.isClosed directory = true <;>
      simp [create, h.target hcheck, child?, refusal?, addName, hlong, hname, hentry, hclosed, bind,
        Except.bind]

/-- One tree is another with one more file in it. -/
structure Gains (tree after : FileTree) (location : Location) (content : Bytes) : Prop where
  absent : tree.get? location = none
  present : after.get? location = some (.file content)
  others : ∀ other, other ≠ location → after.get? other = tree.get? other
  base : after.base = tree.base
  closed : after.closed = tree.closed

/-- An entry at a free place is one more file. -/
theorem gains_insert (hne : location ≠ []) (habsent : tree.get? location = none) (content : Bytes) :
    tree.Gains (tree.insert location (.file content)) location content where
  absent := habsent
  present := by rw [get?_insert tree hne, if_pos rfl]
  others other hother := by rw [get?_insert tree hne, if_neg hother]
  base := rfl
  closed := rfl

/-- A tree with one more file has everything that was there before. -/
theorem Gains.extends (h : tree.Gains after location content) : after.Extends tree := by
  intro other entry hentry
  rw [h.others other ?_, hentry]
  rintro rfl
  rw [h.absent] at hentry
  cases hentry

/-- Every path that led to a name leads to it in a tree with one more file. -/
theorem Gains.leadsTo (h : tree.Gains after location content)
    (hleads : tree.LeadsTo path directory name) : after.LeadsTo path directory name where
  isName := hleads.isName
  segments := by
    obtain ⟨before, hsegments, hwalk⟩ := hleads.segments
    refine ⟨before, hsegments, ?_⟩
    rw [start, h.base]
    exact h.extends.walk hwalk
  isDirectory := h.extends _ _ hleads.isDirectory

/-- Every file that could be read can be read in a tree with one more file, and has the same
content. -/
theorem Gains.read (h : tree.Gains after location content) {other : Path} {found : Bytes}
    (hread : tree.read other = .ok found) : after.read other = .ok found := by
  obtain ⟨directory, name, hleads, hcheck, hresolve, hfile⟩ := exists_of_read hread
  rw [hleads.resolve hcheck] at hresolve
  have hafter : after.resolve other = .ok (directory ++ [name]) := by
    rw [(h.leadsTo hleads).resolve hcheck]
    exact h.extends.step hresolve
  exact read_of_resolve hafter (h.extends _ _ hfile)

end Making

end EngineFuzz.FileTree
