import EngineFuzz.Text.Lines
import Mathlib.Logic.ExistsUnique
/-!
# The division of a script into lines

A script is a sequence of lines, each with the terminator behind it, where only the last
terminator may be missing.  `IsDivision` says what such a sequence is without reading the text:
it joins to the text, its lines hold no line ends, its terminators are among five, and no pair
of carriage return and line feed is parted.

* `existsUnique_division` — every text has exactly one division, reading the text never tears a
  character and yields the lines of that division, and joining any division gives a text from which
  its lines are read back;
* `scriptLines_written`, `newlineLines_written` — clear lines that are each ended by a line feed are
  read back by both ways of dividing a text.
-/

namespace EngineFuzz.Text

/-- A line and the terminator behind it. -/
structure Piece where
  line : List Char
  terminator : List Char
deriving DecidableEq, Repr

/-- The text that pieces make. -/
def joined (pieces : List Piece) : List Char :=
  pieces.flatMap fun piece => piece.line ++ piece.terminator

/-- The pieces are a division of the text into lines and terminators.  The last terminator may be
missing behind a line that is not empty. -/
structure IsDivision (text : List Char) (pieces : List Piece) : Prop where
  joined_eq : joined pieces = text
  clear : ∀ piece ∈ pieces, ∀ c ∈ piece.line, c ∉ ['\n', '\r', '\u2028', '\u2029']
  terminated : ∀ before piece after, pieces = before ++ piece :: after →
    piece.terminator ∈ [['\n'], ['\r', '\n'], ['\r'], ['\u2028'], ['\u2029']] ∨
      (after = [] ∧ piece.terminator = [] ∧ piece.line ≠ [])
  not_parted : ∀ before piece after, pieces = before ++ piece :: after →
    piece.terminator = ['\r'] → (joined after).head? ≠ some '\n'

/-- The line ends are four characters. -/
theorem isLineEnd_eq_false_iff {c : Char} :
    isLineEnd c = false ↔ c ∉ ['\n', '\r', '\u2028', '\u2029'] := by
  simp [isLineEnd, and_assoc]

/-- A clear text holds none of the four line ends. -/
theorem isClear_iff {cs : List Char} :
    IsClear cs ↔ ∀ c ∈ cs, c ∉ ['\n', '\r', '\u2028', '\u2029'] :=
  forall₂_congr fun _ _ => isLineEnd_eq_false_iff

/-- What stands behind the line of a piece: a terminator before what the next pieces make, or,
at the very end of a text, nothing. -/
def EndsPiece (piece : Piece) (pieces : List Piece) : Prop :=
  Terminates piece.terminator (joined pieces) ∨
    (pieces = [] ∧ piece.terminator = [] ∧ piece.line ≠ [])

/-- The text of pieces begins with the first piece. -/
theorem joined_cons (piece : Piece) (pieces : List Piece) :
    joined (piece :: pieces) = piece.line ++ (piece.terminator ++ joined pieces) := by
  simp [joined]

/-- The empty text is divided into no pieces. -/
theorem isDivision_nil : IsDivision [] [] where
  joined_eq := rfl
  clear := fun _ hpiece => nomatch hpiece
  terminated := fun _ _ _ h => by simp at h
  not_parted := fun _ _ _ h => by simp at h

/-- A division is its first piece and a division of what follows. -/
theorem isDivision_cons_iff {text : List Char} {piece : Piece} {pieces : List Piece} :
    IsDivision text (piece :: pieces) ↔
      text = piece.line ++ (piece.terminator ++ joined pieces) ∧ IsClear piece.line ∧
        EndsPiece piece pieces ∧ IsDivision (joined pieces) pieces := by
  constructor
  · intro h
    refine ⟨?_, ?_, ?_, rfl, ?_, ?_, ?_⟩
    · rw [← h.joined_eq, joined_cons]
    · exact isClear_iff.mpr (h.clear piece List.mem_cons_self)
    · rcases h.terminated [] piece pieces rfl with hmem | hlast
      · exact Or.inl ⟨hmem, h.not_parted [] piece pieces rfl⟩
      · exact Or.inr hlast
    · exact fun other hother => h.clear other (List.mem_cons_of_mem _ hother)
    · exact fun before other after heq => h.terminated (piece :: before) other after (by simp [heq])
    · exact fun before other after heq => h.not_parted (piece :: before) other after (by simp [heq])
  · rintro ⟨htext, hclear, hend, hrest⟩
    refine ⟨?_, ?_, ?_, ?_⟩
    · rw [htext, joined_cons]
    · exact List.forall_mem_cons.mpr ⟨isClear_iff.mp hclear, hrest.clear⟩
    · intro before other after heq
      cases before with
      | nil =>
          obtain ⟨rfl, rfl⟩ := List.cons.inj heq
          exact hend.imp_left Terminates.mem_terminators
      | cons first before => exact hrest.terminated before other after (List.cons.inj heq).2
    · intro before other after heq hreturn
      cases before with
      | nil =>
          obtain ⟨rfl, rfl⟩ := List.cons.inj heq
          rcases hend with hend | ⟨-, hnone, -⟩
          · exact hend.not_parted hreturn
          · simp [hnone] at hreturn
      | cons first before => exact hrest.not_parted before other after (List.cons.inj heq).2 hreturn

/-- A text is empty if it is divided into no pieces, and only then. -/
theorem IsDivision.eq_nil_iff {text : List Char} {pieces : List Piece}
    (h : IsDivision text pieces) : pieces = [] ↔ text = [] := by
  cases pieces with
  | nil => simpa [joined] using h.joined_eq.symm
  | cons piece pieces =>
      obtain ⟨rfl, -, hend, -⟩ := isDivision_cons_iff.mp h
      rcases hend with hend | ⟨-, -, hline⟩
      · obtain ⟨c, more, hcons, -⟩ := hend.exists_cons
        simp [hcons]
      · simp [hline]

/-- **Reading follows a division.**  The line of the first piece is read, and what the other
pieces make is left. -/
theorem IsDivision.nextLine_eq {text : List Char} {piece : Piece} {pieces : List Piece}
    (h : IsDivision text (piece :: pieces)) :
    nextLine text = .line piece.line (joined pieces) := by
  obtain ⟨rfl, hclear, hend, -⟩ := isDivision_cons_iff.mp h
  rcases hend with hend | ⟨rfl, hnone, hline⟩
  · exact nextLine_append hclear hend
  · simp only [hnone, joined, List.flatMap_nil, List.append_nil]
    exact nextLine_of_isClear hline hclear

/-- The lines that are read are those of a division. -/
theorem IsDivision.readLines_eq {text : List Char} {pieces : List Piece}
    (h : IsDivision text pieces) : readLines text = some (pieces.map Piece.line) := by
  induction pieces generalizing text with
  | nil =>
      rw [h.eq_nil_iff.mp rfl, readLines_nil]
      rfl
  | cons piece pieces ih =>
      have hrest := (isDivision_cons_iff.mp h).2.2.2
      rw [readLines_of_nextLine h.nextLine_eq, ih hrest]
      rfl

/-- Every text has a division: the first line with its terminator, and a division of the rest. -/
theorem exists_isDivision (text : List Char) : ∃ pieces, IsDivision text pieces := by
  induction hlen : text.length using Nat.strongRecOn generalizing text with
  | ind n ih =>
      by_cases hne : text = []
      · exact ⟨[], hne ▸ isDivision_nil⟩
      · rcases isClear_or_exists_terminates text
            with hclear | ⟨line, terminator, rest, heq, hline, hend⟩
        · exact ⟨[⟨text, []⟩], isDivision_cons_iff.mpr
            ⟨by simp [joined], hclear, Or.inr ⟨rfl, rfl, hne⟩, isDivision_nil⟩⟩
        · have hnext : nextLine text = .line line rest := by
            rw [heq]
            exact nextLine_append hline hend
          have hshorter := length_lt_of_nextLine hnext
          obtain ⟨pieces, hpieces⟩ := ih rest.length (by omega) rest rfl
          obtain rfl : joined pieces = rest := hpieces.joined_eq
          exact ⟨⟨line, terminator⟩ :: pieces,
            isDivision_cons_iff.mpr ⟨heq, hline, Or.inl hend, hpieces⟩⟩

/-- Two divisions of one text are equal, since reading the text finds the first piece of both. -/
theorem IsDivision.unique {text : List Char} {pieces others : List Piece}
    (h : IsDivision text pieces) (hothers : IsDivision text others) : others = pieces := by
  induction pieces generalizing text others with
  | nil => exact hothers.eq_nil_iff.mpr (h.eq_nil_iff.mp rfl)
  | cons piece pieces ih =>
      cases others with
      | nil => exact (h.eq_nil_iff.mpr (hothers.eq_nil_iff.mp rfl)).symm
      | cons other others =>
          have hread :
              NextLine.line other.line (joined others) = .line piece.line (joined pieces) := by
            rw [← hothers.nextLine_eq, h.nextLine_eq]
          obtain ⟨hline, hjoined⟩ := NextLine.line.inj hread
          obtain ⟨htext, -, -, hrest⟩ := isDivision_cons_iff.mp h
          obtain ⟨htext', -, -, hrest'⟩ := isDivision_cons_iff.mp hothers
          have hterminator : other.terminator = piece.terminator := by
            rw [htext, hline, hjoined] at htext'
            exact (List.append_cancel_right (List.append_cancel_left htext')).symm
          have hpiece : other = piece := by
            cases piece
            cases other
            simp_all
          rw [hjoined] at hrest'
          rw [hpiece, ih hrest hrest']

/-- The lines of a script are those of its division. -/
theorem IsDivision.scriptLines_eq {text : List Char} {pieces : List Piece}
    (h : IsDivision text pieces) : scriptLines text = pieces.map Piece.line :=
  Option.some.inj ((readLines_eq_some text).symm.trans h.readLines_eq)

/-- The line of a script with a 1-based number. -/
def lineAt? (source : String) (number : Nat) : Option String :=
  if number = 0 then none else (linesOf source)[number - 1]?

/-- Lines are counted from one. -/
theorem lineAt?_add_one (source : String) (n : Nat) :
    lineAt? source (n + 1) = (linesOf source)[n]? :=
  rfl

/-- No line of a script holds a line end. -/
theorem isClear_of_mem_scriptLines {cs line : List Char} (h : line ∈ scriptLines cs) :
    IsClear line := by
  obtain ⟨pieces, hpieces⟩ := exists_isDivision cs
  rw [hpieces.scriptLines_eq] at h
  obtain ⟨piece, hpiece, rfl⟩ := List.mem_map.mp h
  exact isClear_iff.mpr (hpieces.clear piece hpiece)

/-- **The lines of a script.**  Every text has exactly one division into lines and terminators.
Reading the text comes to its end without tearing a character, and what it yields are the lines
of that division; so the lines of any division are read back from the text that it makes. -/
theorem existsUnique_division :
    (∀ source : String, ∃! pieces, IsDivision source.toList pieces) ∧
      (∀ (source : String) (pieces : List Piece), IsDivision source.toList pieces →
        readLines source.toList = some (pieces.map Piece.line) ∧
          linesOf source = pieces.map fun piece => String.ofList piece.line) ∧
      ∀ pieces : List Piece, IsDivision (joined pieces) pieces →
        linesOf (String.ofList (joined pieces)) =
          pieces.map fun piece => String.ofList piece.line := by
  have hread : ∀ (source : String) (pieces : List Piece), IsDivision source.toList pieces →
      readLines source.toList = some (pieces.map Piece.line) ∧
        linesOf source = pieces.map fun piece => String.ofList piece.line := by
    intro source pieces h
    refine ⟨h.readLines_eq, ?_⟩
    simp only [linesOf, h.scriptLines_eq, List.map_map, Function.comp_def]
  refine ⟨?_, hread, ?_⟩
  · intro source
    obtain ⟨pieces, hpieces⟩ := exists_isDivision source.toList
    exact ⟨pieces, hpieces, fun others hothers => hpieces.unique hothers⟩
  · intro pieces h
    exact (hread (String.ofList (joined pieces)) pieces (by simpa using h)).2

/-- A pair after a lone carriage return, a separator, and a last line without a terminator. -/
theorem existsUnique_division_mixed :
    let pieces : List Piece :=
      [⟨['a'], ['\r']⟩, ⟨[], ['\r', '\n']⟩, ⟨['b'], ['\u2028']⟩, ⟨['c'], []⟩]
    IsDivision "a\r\r\nb\u2028c".toList pieces ∧
      linesOf "a\r\r\nb\u2028c" = ["a", "", "b", "c"] := by
  intro pieces
  have hlast : IsDivision ['c'] [⟨['c'], []⟩] :=
    isDivision_cons_iff.mpr ⟨rfl, by simp [isClear_iff], Or.inr (by simp), isDivision_nil⟩
  have hseparated : IsDivision ['b', '\u2028', 'c'] (pieces.drop 2) :=
    isDivision_cons_iff.mpr ⟨rfl, by simp [isClear_iff],
      Or.inl ⟨by simp [terminators], by simp⟩, hlast⟩
  have hpair : IsDivision ['\r', '\n', 'b', '\u2028', 'c'] (pieces.drop 1) :=
    isDivision_cons_iff.mpr
      ⟨rfl, by simp [isClear_iff], Or.inl ⟨by simp [terminators], by simp⟩, hseparated⟩
  have hall : IsDivision "a\r\r\nb\u2028c".toList pieces :=
    isDivision_cons_iff.mpr
      ⟨rfl, by simp [isClear_iff], Or.inl ⟨by simp [terminators], by simp [joined]⟩, hpair⟩
  exact ⟨hall, (existsUnique_division.2.1 _ pieces hall).2⟩

/-! ## Lines that are written -/

/-- Lines that are each ended by a line feed. -/
def written (lines : List (List Char)) : List Char := lines.flatMap fun line => line ++ ['\n']

/-- The first line that is written stands at the head. -/
theorem written_cons (line : List Char) (lines : List (List Char)) :
    written (line :: lines) = line ++ (['\n'] ++ written lines) := by
  simp [written]

/-- A line feed is a whole terminator. -/
theorem terminates_newline (rest : List Char) : Terminates ['\n'] rest where
  mem_terminators := by simp [terminators]
  not_parted := fun h => by simp at h

/-- Clear lines that are written are read back. -/
theorem scriptLines_written {lines : List (List Char)} (h : ∀ line ∈ lines, IsClear line) :
    scriptLines (written lines) = lines := by
  induction lines with
  | nil => exact scriptLines_nil
  | cons line lines ih =>
      obtain ⟨hline, hlines⟩ := List.forall_mem_cons.mp h
      rw [written_cons, scriptLines_append hline (terminates_newline _), ih hlines]

/-- Division at line feeds finds a clear line before a line feed. -/
theorem newlineLines_append {line : List Char} (hline : IsClear line) (rest : List Char) :
    newlineLines (line ++ '\n' :: rest) = line :: newlineLines rest := by
  induction line with
  | nil => simp [newlineLines]
  | cons c line ih =>
      obtain ⟨hc, hrest⟩ := isClear_cons.mp hline
      have hfeed : c ≠ '\n' := by rintro rfl; cases hc
      have hreturn : c ≠ '\r' := by rintro rfl; cases hc
      rw [List.cons_append, newlineLines.eq_4 _ _ (by simpa using hfeed) (by simp [hreturn]),
        ih hrest]
      rfl

/-- Clear lines that are written are found by division at line feeds too. -/
theorem newlineLines_written {lines : List (List Char)} (h : ∀ line ∈ lines, IsClear line) :
    newlineLines (written lines) = lines := by
  induction lines with
  | nil => rfl
  | cons line lines ih =>
      obtain ⟨hline, hlines⟩ := List.forall_mem_cons.mp h
      rw [written_cons, List.singleton_append, newlineLines_append hline, ih hlines]

/-- The only line ends in what is written are line feeds. -/
theorem eq_newline_of_mem_written {lines : List (List Char)} (h : ∀ line ∈ lines, IsClear line)
    {c : Char} (hc : c ∈ written lines) (hend : isLineEnd c = true) : c = '\n' := by
  obtain ⟨line, hline, hmem⟩ := List.mem_flatMap.mp hc
  rcases List.mem_append.mp hmem with hmem | hmem
  · rw [h line hline c hmem] at hend
    cases hend
  · exact List.mem_singleton.mp hmem

end EngineFuzz.Text
