import EngineFuzz.Proofs.ProgramFiles
/-!
# Trees that differ in the text of one file

Where a path leads, and whether something can be made there, depends on the directories of a
tree and on the names in them, and never on what a file holds.  So if one file has another text,
whatever is done to the files afterwards comes to the same: it fails for the same reason, or it
leads to trees that again differ in that file alone.

* `Rewords` — two trees that are the same but for the text of one file;
* `Rewords.resolve_eq`, `Rewords.target_eq` — paths lead to the same places;
* `Rewords.makeParent`, `Rewords.write` — making directories and writing files;
* `exists_rewords_of_read` — a file that is read can be given another text.
-/

namespace EngineFuzz.FileTree

open Text (Bytes)
open EngineFuzz.Path (segmentsOf)

/-- Two trees that are the same, but that a file may hold one text in the first and another in the
second. -/
structure Rewords (tree other : FileTree) (place : Location) : Prop where
  base : other.base = tree.base
  closed : other.closed = tree.closed
  entries : ∀ location, other.get? location = tree.get? location ∨
    location = place ∧ ∃ content content', tree.get? location = some (.file content) ∧
      other.get? location = some (.file content')

section Places

variable {tree other : FileTree} {place here location : Location}

/-- Directories are the same. -/
theorem Rewords.directory_iff (h : tree.Rewords other place) (location : Location) :
    other.get? location = some .directory ↔ tree.get? location = some .directory := by
  rcases h.entries location with hsame | ⟨-, content, content', hfile, hfile'⟩
  · rw [hsame]
  · simp [hfile, hfile']

/-- Names are the same. -/
theorem Rewords.isNone_get? (h : tree.Rewords other place) (location : Location) :
    (other.get? location).isNone = (tree.get? location).isNone := by
  rcases h.entries location with hsame | ⟨-, content, content', hfile, hfile'⟩
  · rw [hsame]
  · simp [hfile, hfile']

theorem Rewords.step_eq (h : tree.Rewords other place) : other.step = tree.step := by
  funext here segment
  simp only [step, ne_eq, h.directory_iff, h.isNone_get?]

theorem Rewords.walk_eq (h : tree.Rewords other place) : other.walk = tree.walk := by
  funext here segments
  rw [walk, walk, h.step_eq]

/-- **Paths lead to the same places.** -/
theorem Rewords.resolve_eq (h : tree.Rewords other place) (path : Path) :
    other.resolve path = tree.resolve path := by
  simp only [resolve, start, h.walk_eq, h.base]

theorem Rewords.holds_eq (h : tree.Rewords other place) (path : Path) :
    other.holds path = tree.holds path := by
  rw [holds, holds, h.resolve_eq]

theorem Rewords.isDirectory_eq (h : tree.Rewords other place) (path : Path) :
    other.isDirectory path = tree.isDirectory path := by
  simp only [isDirectory, h.resolve_eq, h.directory_iff]

/-- **New names have the same places.** -/
theorem Rewords.target_eq (h : tree.Rewords other place) (path : Path) :
    other.target path = tree.target path := by
  simp only [target, start, h.walk_eq, h.base, ne_eq, h.directory_iff]

/-- Two trees stay the same but for the file if the same is put into both. -/
theorem Rewords.insert (h : tree.Rewords other place) (hne : location ≠ []) (entry : Entry) :
    (tree.insert location entry).Rewords (other.insert location entry) place where
  base := h.base
  closed := h.closed
  entries elsewhere := by
    rw [get?_insert tree hne, get?_insert other hne]
    split
    · exact Or.inl rfl
    · exact h.entries elsewhere

end Places

section Changes

variable {tree other : FileTree} {place : Location}

/-- The same comes of a change of two trees: the same fault, or trees that are the same but for
a file.
-/
def ComeToSame (place : Location) (outcome outcome' : Except SystemFault FileTree) : Prop :=
  (∃ fault, outcome = .error fault ∧ outcome' = .error fault) ∨
    ∃ changed changed', outcome = .ok changed ∧ outcome' = .ok changed' ∧
      changed.Rewords changed' place

theorem Rewords.addName (h : tree.Rewords other place) (directory : Location) (name : Bytes)
    (entry : Entry) :
    ComeToSame place (tree.addName directory name entry) (other.addName directory name entry) := by
  have hclosed : other.isClosed directory = tree.isClosed directory := by
    rw [isClosed, isClosed, h.closed]
  simp only [FileTree.addName, hclosed]
  split
  · exact Or.inl ⟨_, rfl, rfl⟩
  · have hne : directory ++ [name] ≠ [] :=
      List.append_ne_nil_of_right_ne_nil directory (List.cons_ne_nil name [])
    exact Or.inr ⟨_, _, rfl, rfl, h.insert hne entry⟩

/-- Under a name there is the same, or a file in both trees. -/
theorem Rewords.child?_cases (h : tree.Rewords other place) (directory : Location) (name : Bytes) :
    (∃ fault, tree.child? directory name = .error fault ∧
      other.child? directory name = .error fault) ∨
      ∃ found found', tree.child? directory name = .ok found ∧
        other.child? directory name = .ok found' ∧
        (found' = found ∨ ∃ content content', found = some (.file content) ∧
          found' = some (.file content')) := by
  simp only [child?]
  split
  · exact Or.inl ⟨_, rfl, rfl⟩
  · refine Or.inr ⟨_, _, rfl, rfl, ?_⟩
    exact (h.entries _).imp id And.right

theorem Rewords.makeDirectory (h : tree.Rewords other place) (path : Path) :
    ComeToSame place (tree.makeDirectory path) (other.makeDirectory path) := by
  rw [FileTree.makeDirectory, FileTree.makeDirectory, h.target_eq]
  cases tree.target path with
  | error fault => exact Or.inl ⟨fault, rfl, rfl⟩
  | ok found =>
    obtain ⟨directory, last⟩ := found
    cases last with
    | dots => exact Or.inl ⟨_, rfl, rfl⟩
    | name name slashed =>
      change ComeToSame place (tree.child? directory name >>= _) (other.child? directory name >>= _)
      rcases h.child?_cases directory name with
        ⟨fault, hchild, hchild'⟩ | ⟨found, found', hchild, hchild', hfound⟩
      · rw [hchild, hchild']
        exact Or.inl ⟨fault, rfl, rfl⟩
      rw [hchild, hchild']
      rcases hfound with rfl | ⟨content, content', rfl, rfl⟩
      · cases found' with
        | none => exact h.addName directory name .directory
        | some entry => exact Or.inl ⟨_, rfl, rfl⟩
      · exact Or.inl ⟨_, rfl, rfl⟩

theorem Rewords.again (h : tree.Rewords other place) (path : Path) :
    (makeAncestors.again path tree).1.Rewords (makeAncestors.again path other).1 place ∧
      (makeAncestors.again path other).2 = (makeAncestors.again path tree).2 := by
  unfold makeAncestors.again
  rcases h.makeDirectory path with ⟨fault, hmade, hmade'⟩ | ⟨made, made', hmade, hmade', hrewords⟩
  · rw [hmade, hmade', h.isDirectory_eq]
    exact ⟨h, rfl⟩
  · rw [hmade, hmade']
    exact ⟨hrewords, rfl⟩

theorem Rewords.makeAncestors (h : tree.Rewords other place) (path : Path) (depth : Nat) :
    (tree.makeAncestors path depth).1.Rewords (other.makeAncestors path depth).1 place ∧
      (other.makeAncestors path depth).2 = (tree.makeAncestors path depth).2 := by
  induction depth generalizing tree other path with
  | zero => exact ⟨h, rfl⟩
  | succ depth ih =>
    unfold FileTree.makeAncestors
    rcases h.makeDirectory path with ⟨fault, hmade, hmade'⟩ | ⟨made, made', hmade, hmade', hrewords⟩
    · rw [hmade, hmade', h.isDirectory_eq]
      cases fault
      case noEntry =>
        dsimp only
        cases path.parent? with
        | none => exact ⟨h, rfl⟩
        | some parent =>
          obtain ⟨habove, hsame⟩ := ih h parent
          dsimp only
          split
          · exact h.again path
          · cases hmore : tree.makeAncestors parent depth with
            | mk above result =>
              cases hmore' : other.makeAncestors parent depth with
              | mk above' result' =>
                rw [hmore, hmore'] at habove hsame
                obtain rfl : result' = result := hsame
                cases result' with
                | error fault => exact ⟨habove, rfl⟩
                | ok _ => exact habove.again path
      all_goals exact ⟨h, rfl⟩
    · rw [hmade, hmade']
      exact ⟨hrewords, rfl⟩

/-- **Making the directories above a path.** -/
theorem Rewords.makeParent (h : tree.Rewords other place) (path : Path) :
    (tree.makeParent path).1.Rewords (other.makeParent path).1 place ∧
      (other.makeParent path).2 = (tree.makeParent path).2 := by
  unfold FileTree.makeParent
  split
  · unfold makeDirectories
    split
    · exact ⟨h, rfl⟩
    · exact h.makeAncestors _ _
  · exact ⟨h, rfl⟩

/-- **Writing a file.** -/
theorem Rewords.write (h : tree.Rewords other place) (path : Path) (content : Bytes) :
    ComeToSame place (tree.write path content) (other.write path content) := by
  rw [FileTree.write, FileTree.write, h.target_eq]
  cases tree.target path with
  | error fault => exact Or.inl ⟨fault, rfl, rfl⟩
  | ok found =>
    obtain ⟨directory, last⟩ := found
    cases last with
    | dots => exact Or.inl ⟨_, rfl, rfl⟩
    | name name slashed =>
      cases slashed with
      | true => exact Or.inl ⟨_, rfl, rfl⟩
      | false =>
        have hne : directory ++ [name] ≠ [] :=
          List.append_ne_nil_of_right_ne_nil directory (List.cons_ne_nil name [])
        have hput := h.insert hne (.file content)
        change ComeToSame place (tree.child? directory name >>= _)
            (other.child? directory name >>= _)
        rcases h.child?_cases directory name with
          ⟨fault, hchild, hchild'⟩ | ⟨found, found', hchild, hchild', hfound⟩
        · rw [hchild, hchild']
          exact Or.inl ⟨fault, rfl, rfl⟩
        rw [hchild, hchild']
        rcases hfound with rfl | ⟨old, old', rfl, rfl⟩
        · cases found' with
          | none => exact h.addName directory name (.file content)
          | some entry =>
            cases entry with
            | directory => exact Or.inl ⟨_, rfl, rfl⟩
            | file old => exact Or.inr ⟨_, _, rfl, rfl, hput⟩
        · exact Or.inr ⟨_, _, rfl, rfl, hput⟩

/-- **A file that is read** can be given another text. -/
theorem exists_rewords_of_read {path : Path} {content : Bytes} (h : tree.read path = .ok content)
    (content' : Bytes) : ∃ place other, tree.write path content' = .ok other ∧
      tree.resolve path = .ok place ∧ tree.Rewords other place ∧
        other.read path = .ok content' := by
  obtain ⟨directory, name, hleads, hcheck, hresolve, hfile⟩ := exists_of_read h
  have hne : directory ++ [name] ≠ [] :=
    List.append_ne_nil_of_right_ne_nil directory (List.cons_ne_nil name [])
  obtain ⟨hshort, -⟩ := hleads.of_resolve hcheck hresolve
  have hchild : tree.child? directory name = .ok (some (.file content)) :=
    child?_eq_ok_iff.mpr ⟨hshort, hfile.symm⟩
  have hwrite : tree.write path content' =
      .ok (tree.insert (directory ++ [name]) (.file content')) := by
    simp only [FileTree.write, hleads.target hcheck, bind, Except.bind, hchild]
    rfl
  have hrewords : tree.Rewords (tree.insert (directory ++ [name]) (.file content'))
      (directory ++ [name]) := by
    refine ⟨rfl, rfl, fun location => ?_⟩
    rw [get?_insert tree hne]
    split
    · rename_i hplace
      rw [hplace, hfile]
      exact Or.inr ⟨rfl, content, content', rfl, rfl⟩
    · exact Or.inl rfl
  refine ⟨directory ++ [name], _, hwrite, hresolve, hrewords, ?_⟩
  refine read_of_resolve ((hrewords.resolve_eq path).trans hresolve) ?_
  rw [get?_insert tree hne, if_pos rfl]

end Changes

end EngineFuzz.FileTree
