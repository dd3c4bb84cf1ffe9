import EngineFuzz.Proofs.NewFiles
/-!
# Files that are taken away

A path that led to a file when the file was made leads to the same place later, as long as the
directories are still there: which place that is depends on the segments of the path alone, and
only directories are passed on the way.  So whoever made a file can take it away again, and a
tree in which a file was made and taken away is the tree of before.

Somebody else may have changed the tree in the meantime.  Then the path may lead nowhere, and
nothing can be taken away; but then there is nothing at that path either.  What stands in the
way is a directory that was put there, or that the directory in which the file stands has been
closed.

* `KeepsDirectories` — no directory is lost; `KeepsDirectories.walk` — and no way through
  directories;
* `Admits` — a path under which a file may be made at a location, and taken away from it;
* `Plants` — one tree is another in which a file was made;
* `without`, `resolve_without` — a tree without what a path leads to: then the path leads nowhere;
* `Bars`, `Bars.remove`, `remove_cases` — removing a file from a tree that somebody else has
  changed.
-/

namespace EngineFuzz.FileTree

open Text (Bytes)
open EngineFuzz.Path (segmentsOf IsName)

section Directories

variable {tree after : FileTree} {path : Path} {here there : Location} {segments : List Bytes}

/-- Every directory is still one, and paths are read from the same place with the same
permissions. -/
structure KeepsDirectories (tree after : FileTree) : Prop where
  directory : ∀ location, tree.get? location = some .directory →
    after.get? location = some .directory
  base : after.base = tree.base
  closed : after.closed = tree.closed

/-- An entry that is put where no directory is leaves all directories alone. -/
theorem keepsDirectories_insert {location : Location} (hne : location ≠ [])
    (h : tree.get? location ≠ some .directory) (entry : Entry) :
    tree.KeepsDirectories (tree.insert location entry) where
  directory other hother := by
    rw [get?_insert tree hne, if_neg ?_, hother]
    rintro rfl
    exact h hother
  base := rfl
  closed := rfl

/-- A way that ends in a directory passes directories alone, so it is there as long as they are. -/
theorem KeepsDirectories.walk (h : tree.KeepsDirectories after)
    (hwalk : tree.walk here segments = .ok there) (hthere : tree.get? there = some .directory) :
    after.walk here segments = .ok there := by
  induction segments generalizing here with
  | nil => exact hwalk
  | cons first others ih =>
    obtain ⟨next, hstep, hrest⟩ := walk_cons_eq_ok_iff.mp hwalk
    have hnext : tree.get? next = some .directory := by
      cases others with
      | nil =>
        have heq : next = there := Except.ok.inj hrest
        rw [heq, hthere]
      | cons second others =>
        obtain ⟨_, hsecond, -⟩ := walk_cons_eq_ok_iff.mp hrest
        exact (step_eq_ok_iff.mp hsecond).1
    obtain ⟨hhere, hcases⟩ := step_eq_ok_iff.mp hstep
    refine walk_cons_eq_ok_iff.mpr ⟨next, step_eq_ok_iff.mpr ⟨h.directory _ hhere, ?_⟩, ih hrest⟩
    rcases hcases with hidle | ⟨hdots, hparent, hup⟩ | ⟨hname, hshort, hchild, -⟩
    · exact Or.inl hidle
    · exact Or.inr (Or.inl ⟨hdots, hparent, h.directory _ hup⟩)
    · refine Or.inr (Or.inr ⟨hname, hshort, hchild, ?_⟩)
      rw [← hchild, h.directory _ hnext]
      exact Option.some_ne_none _

/-- A path that led to a directory leads to it as long as the directories are there. -/
theorem KeepsDirectories.resolve {location : Location} (h : tree.KeepsDirectories after)
    (hresolve : tree.resolve path = .ok location)
    (hlocation : tree.get? location = some .directory) : after.resolve path = .ok location := by
  obtain ⟨_, hcheck, hwalk⟩ := bind_eq_ok_iff.mp hresolve
  refine bind_eq_ok_iff.mpr ⟨(), hcheck, ?_⟩
  rw [start, h.base]
  exact h.walk hwalk hlocation

/-- A path that led to a name leads to it as long as the directories are there. -/
theorem LeadsTo.transfer {directory : Location} {name : Bytes}
    (h : tree.LeadsTo path directory name)
    (hkeeps : tree.KeepsDirectories after) : after.LeadsTo path directory name where
  isName := h.isName
  segments := by
    obtain ⟨before, hsegments, hwalk⟩ := h.segments
    refine ⟨before, hsegments, ?_⟩
    rw [start, hkeeps.base]
    exact hkeeps.walk hwalk h.isDirectory
  isDirectory := hkeeps.directory _ h.isDirectory

end Directories

section Admission

variable {tree after left : FileTree} {path : Path} {location : Location} {content : Bytes}

/-- A path by which a file may be made at a location, and taken away from it: it leads through
an open directory, and neither the path nor the name is too long. -/
structure Admits (tree : FileTree) (path : Path) (location : Location) : Prop where
  exists_leadsTo : ∃ directory name, location = directory ++ [name] ∧
    tree.LeadsTo path directory name ∧ name.length ≤ maxName ∧ tree.isClosed directory = false
  asked : checkPath path = .ok ()

/-- No file is made in place of the root. -/
theorem Admits.ne_nil (h : tree.Admits path location) : location ≠ [] := by
  obtain ⟨directory, name, rfl, -⟩ := h.exists_leadsTo
  exact List.append_ne_nil_of_right_ne_nil directory (List.cons_ne_nil name [])

/-- A path admits one location only. -/
theorem Admits.unique {other : Location} (h : tree.Admits path location)
    (hother : tree.Admits path other) : other = location := by
  obtain ⟨directory, name, rfl, hleads, -⟩ := h.exists_leadsTo
  obtain ⟨directory', name', rfl, hleads', -⟩ := hother.exists_leadsTo
  have htarget := hleads.target h.asked
  rw [hleads'.target h.asked] at htarget
  obtain ⟨rfl, hlast⟩ := Prod.mk.inj (Except.ok.inj htarget)
  rw [(LastPart.name.inj hlast).1]

/-- What a path admits it admits as long as the directories are there. -/
theorem Admits.transfer (h : tree.Admits path location) (hkeeps : tree.KeepsDirectories after) :
    after.Admits path location where
  exists_leadsTo := by
    obtain ⟨directory, name, hlocation, hleads, hshort, hopen⟩ := h.exists_leadsTo
    refine ⟨directory, name, hlocation, hleads.transfer hkeeps, hshort, ?_⟩
    rw [isClosed, hkeeps.closed]
    exact hopen
  asked := h.asked

/-- The path leads to its location, if anything is there. -/
theorem Admits.resolve_eq (h : tree.Admits path location) :
    tree.resolve path = if tree.get? location = none then .error .noEntry else .ok location := by
  obtain ⟨directory, name, rfl, hleads, hshort, -⟩ := h.exists_leadsTo
  exact hleads.resolve_eq h.asked hshort

/-- The path leads to an entry at its location. -/
theorem Admits.resolve_of_some (h : tree.Admits path location) {entry : Entry}
    (hentry : tree.get? location = some entry) : tree.resolve path = .ok location := by
  rw [h.resolve_eq, hentry, if_neg (Option.some_ne_none entry)]

/-- The path leads to the text that the file at its location holds. -/
theorem Admits.readText_eq {text : String} (h : tree.Admits path location)
    (hfile : tree.get? location = some (.file (Text.bytesOf text))) :
    tree.readText path = .ok text := by
  rw [readText, read_of_resolve (h.resolve_of_some hfile) hfile]
  simp [bind, Except.bind, pure, Except.pure]

/-- The file at the location can be taken away. -/
theorem Admits.remove_eq (h : tree.Admits path location)
    (hfile : tree.get? location = some (.file content)) :
    tree.remove path = .ok (tree.erase location) := by
  obtain ⟨directory, name, rfl, hleads, hshort, hopen⟩ := h.exists_leadsTo
  simp [remove, hleads.target h.asked, child?, Nat.not_lt.mpr hshort, hfile, hopen,
    bind, Except.bind, pure, Except.pure]

/-- One tree is another in which a file was made at a location, under a path that admits it. -/
structure Plants (tree : FileTree) (path : Path) (location : Location) (content : Bytes)
    (after : FileTree) : Prop where
  admits : tree.Admits path location
  absent : tree.get? location = none
  eq_insert : after = tree.insert location (.file content)

/-- What stands in a tree in which a file was made. -/
theorem Plants.get?_eq (h : tree.Plants path location content after) (other : Location) :
    after.get? other = if other = location then some (.file content) else tree.get? other := by
  rw [h.eq_insert, get?_insert tree h.admits.ne_nil]

/-- The file stands where it was made. -/
theorem Plants.get?_location (h : tree.Plants path location content after) :
    after.get? location = some (.file content) := by
  rw [h.get?_eq, if_pos rfl]

/-- Making a file leaves all directories alone. -/
theorem Plants.keepsDirectories (h : tree.Plants path location content after) :
    tree.KeepsDirectories after := by
  have hno : tree.get? location ≠ some .directory := by
    rw [h.absent]
    exact (Option.some_ne_none _).symm
  rw [h.eq_insert]
  exact keepsDirectories_insert h.admits.ne_nil hno _

/-- The path still admits its file when that was made. -/
theorem Plants.admits_after (h : tree.Plants path location content after) :
    after.Admits path location :=
  h.admits.transfer h.keepsDirectories

/-- A file that was made can be taken away, and then everything is as before. -/
theorem Plants.erase_eq (h : tree.Plants path location content after) :
    after.erase location = tree := by
  have hnone : ∀ e ∈ tree.entries, e.1 ≠ location := by
    have habsent := h.absent
    cases hl : location with
    | nil => exact absurd hl h.admits.ne_nil
    | cons name names =>
      rw [hl] at habsent
      simpa [get?] using habsent
  have hkept : tree.entries.filter (fun e => decide (e.1 ≠ location)) = tree.entries :=
    List.filter_eq_self.mpr fun e he => decide_eq_true (hnone e he)
  rw [h.eq_insert]
  unfold erase insert
  rw [List.filter_cons_of_neg (by simp), hkept, hkept]

/-- A tree in which a file was made has one more file. -/
theorem Plants.gains (h : tree.Plants path location content after) :
    tree.Gains after location content := by
  rw [h.eq_insert]
  exact gains_insert h.admits.ne_nil h.absent content

/-- Every text that could be read can be read when a file was made. -/
theorem Plants.readText_of_readText (h : tree.Plants path location content after) {other : Path}
    {text : String} (hread : tree.readText other = .ok text) : after.readText other = .ok text := by
  obtain ⟨found, hfound, hstrict⟩ := exists_read_of_readText hread
  rw [readText, h.gains.read hfound]
  simp [hstrict, bind, Except.bind, pure, Except.pure]

/-- A file is made unless something keeps it from being made. -/
theorem plants_of_create {directory : Location} {name : Bytes}
    (h : tree.LeadsTo path directory name)
    (hzero : 0 ∉ path.bytes) (hcreate : tree.create path content = .ok after) :
    tree.Plants path (directory ++ [name]) content after := by
  rw [create_eq h hzero] at hcreate
  cases hrefusal : tree.refusal? path directory name with
  | some fault =>
    rw [hrefusal] at hcreate
    cases hcreate
  | none =>
    rw [hrefusal] at hcreate
    obtain ⟨hlength, hshort, habsent, hopen⟩ := of_refusal?_eq_none hrefusal
    have hasked : checkPath path = .ok () :=
      checkPath_eq_ok_iff.mpr ⟨hzero, h.bytes_ne_nil, hlength⟩
    exact ⟨⟨⟨directory, name, rfl, h, hshort, hopen⟩, hasked⟩, habsent,
      (Except.ok.inj hcreate).symm⟩

end Admission

section Targets

variable {tree : FileTree} {path : Path} {directory : Location} {name : Bytes} {slashed : Bool}

/-- Slashes at the end of a path make empty segments. -/
private theorem exists_dropSlashes_append (segments : List Bytes) :
    ∃ slashes, segments = (segments.reverse.dropWhile (· = [])).reverse ++ slashes ∧
      ∀ s ∈ slashes, s = [] := by
  refine ⟨(segments.reverse.takeWhile (· = [])).reverse, ?_, fun s hs => ?_⟩
  · rw [← List.reverse_append, List.takeWhile_append_dropWhile, List.reverse_reverse]
  · exact of_decide_eq_true (List.all_eq_true.mp List.all_takeWhile s (List.mem_reverse.mp hs))

/-- The segment before those slashes is not empty. -/
private theorem ne_nil_of_getLast?_dropSlashes {segments : List Bytes} {last : Bytes}
    (h : (segments.reverse.dropWhile (· = [])).reverse.getLast? = some last) : last ≠ [] := by
  rw [List.getLast?_reverse] at h
  have hhead := List.head?_dropWhile_not (fun s : Bytes => decide (s = [])) segments.reverse
  rw [h] at hhead
  simpa using hhead

/-- **Where a path would make or lose a name.**  Slashes may follow the name; the segments
before it lead to the directory. -/
theorem exists_of_target (h : tree.target path = .ok (directory, .name name slashed)) :
    checkPath path = .ok () ∧ IsName name ∧ tree.get? directory = some .directory ∧
      ∃ before slashes, segmentsOf path.bytes = before ++ name :: slashes ∧
        (∀ s ∈ slashes, s = []) ∧
        (slashed = false → slashes = []) ∧ tree.walk (tree.start path) before = .ok directory := by
  obtain ⟨_, hcheck, hplace⟩ := bind_eq_ok_iff.mp h
  refine ⟨hcheck, ?_⟩
  obtain ⟨slashes, hsplit, hempty⟩ := exists_dropSlashes_append (segmentsOf path.bytes)
  have hnonempty := @ne_nil_of_getLast?_dropSlashes (segmentsOf path.bytes)
  simp only at hplace
  generalize
    (List.dropWhile (fun s : Bytes => decide (s = [])) (segmentsOf path.bytes).reverse).reverse
    = kept at hplace hsplit hnonempty
  cases hlast : kept.getLast? with
  | none => simp [hlast, pure, Except.pure] at hplace
  | some last =>
    simp only [hlast] at hplace
    obtain ⟨there, hwalk, hfound⟩ := bind_eq_ok_iff.mp hplace
    by_cases hthere : tree.get? there = some .directory
    · by_cases hdots : last = [Path.dot] ∨ last = [Path.dot, Path.dot]
      · simp [hthere, hdots, pure, Except.pure] at hfound
      · obtain ⟨rfl, rfl, rfl⟩ : there = directory ∧ last = name ∧
            decide (kept.length < (segmentsOf path.bytes).length) = slashed := by
          simpa [hthere, hdots, pure, Except.pure] using hfound
        obtain ⟨hdot, hparent⟩ := not_or.mp hdots
        refine ⟨⟨by simp [Path.isIdle, hnonempty hlast, hdot], hparent⟩, hthere,
          kept.dropLast, slashes, ?_, hempty, fun hslashed => ?_, hwalk⟩
        · calc segmentsOf path.bytes
              = (kept.dropLast ++ [last]) ++ slashes := by
                obtain ⟨front, rfl⟩ := List.getLast?_eq_some_iff.mp hlast
                rw [hsplit, List.dropLast_concat]
            _ = kept.dropLast ++ last :: slashes := by rw [List.append_assoc, List.singleton_append]
        · have hlength := of_decide_eq_false hslashed
          rw [hsplit, List.length_append] at hlength
          exact List.eq_nil_of_length_eq_zero (by omega)
    · simp [hthere, throw, throwThe, MonadExceptOf.throw, bind, Except.bind] at hfound

end Targets

section Removal

variable {tree left : FileTree} {path : Path} {location : Location}

/-- A tree without what a path leads to. -/
def without (tree : FileTree) (path : Path) : FileTree :=
  match tree.resolve path with
  | .ok location => tree.erase location
  | .error _ => tree

/-- A path leads through a closed directory, from which nothing can be taken away. -/
def Bars (tree : FileTree) (path : Path) : Prop :=
  ∃ directory name, tree.LeadsTo path directory name ∧ tree.isClosed directory = true

/-- Nothing is taken away from a closed directory. -/
theorem Bars.remove (h : tree.Bars path) : ∃ fault, tree.remove path = .error fault := by
  obtain ⟨directory, name, hleads, hclosed⟩ := h
  cases hremove : tree.remove path with
  | error fault => exact ⟨fault, rfl⟩
  | ok after =>
    obtain ⟨⟨directory', last⟩, htarget, hlast⟩ := bind_eq_ok_iff.mp hremove
    obtain ⟨_, hcheck, -⟩ := bind_eq_ok_iff.mp htarget
    rw [hleads.target hcheck] at htarget
    obtain ⟨rfl, rfl⟩ := Prod.mk.inj (Except.ok.inj htarget)
    obtain ⟨child, -, hchild⟩ := bind_eq_ok_iff.mp hlast
    cases child with
    | none => cases hchild
    | some entry =>
      cases entry with
      | directory => cases hchild
      | file content => simp [hclosed, throw, throwThe, MonadExceptOf.throw] at hchild

end Removal

end EngineFuzz.FileTree
