/-!
# Lines of a script

A script engine ends a line at a line feed, a carriage return, the pair of both, a line
separator or a paragraph separator.  A terminator at the very end starts no further line, and an
empty text has no lines.  `scriptLines` numbers lines the way an engine does, and all positions
that the library reports are positions in this list.

The lines are read one at a time.  `nextLine` looks for the first line end, cuts the text at its
octet position and cuts once more behind the terminator.  A cut inside a character would tear
it; `nextLine` says so in its result, and `readLines` stops there.

* `nextLine_append` — of a line, its terminator and the rest, the line is read and the rest is left;
* `readLines_isSome` — no cut ever tears a character, so that `scriptLines` is defined for every
  text;
* `scriptLines_append`, `scriptLines_of_isClear` — the lines of a text, by the form of its head.

`newlineLines` is the plainer division at line feeds, with a carriage return before the line feed
counted to the terminator.  The two agree on every text the library writes.
-/

namespace EngineFuzz.Text

/-- The characters that end a line on their own. -/
def isLineEnd (c : Char) : Bool := c = '\n' || c = '\r' || c = '\u2028' || c = '\u2029'

/-- The texts that end a line. -/
def terminators : List (List Char) := [['\n'], ['\r', '\n'], ['\r'], ['\u2028'], ['\u2029']]

/-- A text without line ends. -/
def IsClear (cs : List Char) : Prop := ∀ c ∈ cs, isLineEnd c = false

instance (cs : List Char) : Decidable (IsClear cs) :=
  List.decidableBAll (fun c => isLineEnd c = false) cs

/-- A text is clear if its first character and the rest are. -/
theorem isClear_cons {c : Char} {cs : List Char} :
    IsClear (c :: cs) ↔ isLineEnd c = false ∧ IsClear cs :=
  List.forall_mem_cons

/-- A text is clear if its parts are. -/
theorem isClear_append {first second : List Char} :
    IsClear (first ++ second) ↔ IsClear first ∧ IsClear second :=
  List.forall_mem_append

/-- A terminator, as it stands before the rest of a text: a carriage return that a line feed follows
is not a whole one. -/
structure Terminates (terminator rest : List Char) : Prop where
  mem_terminators : terminator ∈ terminators
  not_parted : terminator = ['\r'] → rest.head? ≠ some '\n'

/-- The octet position of the first line end. -/
def lineEndAt? : List Char → Option Nat
  | [] => none
  | c :: rest => if isLineEnd c then some 0 else (lineEndAt? rest).map (c.utf8Size + ·)

/-- Divides a text at an octet position.  A position inside a character or behind the end divides
nothing. -/
def divideAt : (position : Nat) → List Char → Option (List Char × List Char)
  | 0, cs => some ([], cs)
  | _ + 1, [] => none
  | position + 1, c :: rest =>
    if c.utf8Size ≤ position + 1 then
      (divideAt (position + 1 - c.utf8Size) rest).map fun (before, after) => (c :: before, after)
    else none

/-- How many octets the terminator at the head takes. -/
def terminatorWidth : List Char → Nat
  | '\r' :: '\n' :: _ => 2
  | c :: _ => c.utf8Size
  | [] => 1

/-- What comes of asking for the next line. -/
inductive NextLine where
  /-- Nothing is left. -/
  | finished
  /-- A line, and the text behind its terminator. -/
  | line (line rest : List Char)
  /-- A position lies inside a character, where no text can be cut. -/
  | torn
deriving DecidableEq, Repr

/-- Reads the line at the head. -/
def nextLine (cs : List Char) : NextLine :=
  if cs.isEmpty then .finished
  else match lineEndAt? cs with
    | none => .line cs []
    | some position =>
      match divideAt position cs with
      | none => .torn
      | some (line, tail) =>
        match divideAt (terminatorWidth tail) tail with
        | none => .torn
        | some (_, rest) => .line line rest

/-- How many octets a text has. -/
def octetCount : List Char → Nat
  | [] => 0
  | c :: cs => c.utf8Size + octetCount cs

/-- Cutting at the octet count of a part gives that part. -/
theorem divideAt_append (before after : List Char) :
    divideAt (octetCount before) (before ++ after) = some (before, after) := by
  induction before with
  | nil => cases after <;> rfl
  | cons c before ih =>
      have hsize : octetCount (c :: before) = c.utf8Size - 1 + octetCount before + 1 := by
        have := c.utf8Size_pos
        simp only [octetCount]
        omega
      have hpos := c.utf8Size_pos
      have hrest : c.utf8Size - 1 + octetCount before + 1 - c.utf8Size = octetCount before := by
        omega
      rw [hsize, List.cons_append, divideAt, if_pos (by omega), hrest, ih]
      rfl

/-- In a clear text no line end is found. -/
theorem lineEndAt?_of_isClear {cs : List Char} (h : IsClear cs) : lineEndAt? cs = none := by
  induction cs with
  | nil => rfl
  | cons c rest ih =>
      obtain ⟨hc, hrest⟩ := isClear_cons.mp h
      simp [lineEndAt?, hc, ih hrest]

/-- The first line end stands behind the clear part before it. -/
theorem lineEndAt?_append {line rest : List Char} {c : Char} (hline : IsClear line)
    (hc : isLineEnd c = true) : lineEndAt? (line ++ c :: rest) = some (octetCount line) := by
  induction line with
  | nil => simp [lineEndAt?, hc, octetCount]
  | cons d line ih =>
      obtain ⟨hd, hrest⟩ := isClear_cons.mp hline
      simp [lineEndAt?, hd, ih hrest, octetCount]

namespace Terminates

variable {terminator rest : List Char}

/-- A terminator begins with a line end. -/
theorem exists_cons (h : Terminates terminator rest) :
    ∃ c more, terminator = c :: more ∧ isLineEnd c = true := by
  have hmem := h.mem_terminators
  simp only [terminators, List.mem_cons, List.not_mem_nil, or_false] at hmem
  rcases hmem with rfl | rfl | rfl | rfl | rfl <;> exact ⟨_, _, rfl, rfl⟩

/-- The width is that of the terminator which stands there. -/
theorem terminatorWidth_append (h : Terminates terminator rest) :
    terminatorWidth (terminator ++ rest) = octetCount terminator := by
  have hmem := h.mem_terminators
  simp only [terminators, List.mem_cons, List.not_mem_nil, or_false] at hmem
  rcases hmem with rfl | rfl | rfl | rfl | rfl
  · rfl
  · rfl
  · -- a lone carriage return: the pattern of the pair must not match
    cases rest with
    | nil => rfl
    | cons d rest =>
        have hd : d ≠ '\n' := fun hd => h.not_parted rfl (by simp [hd])
        simp [terminatorWidth, hd, octetCount]
  · rfl
  · rfl

end Terminates

/-- **One line.**  Of a clear line, its terminator and the rest, the line is read and the rest
is left. -/
theorem nextLine_append {line terminator rest : List Char} (hline : IsClear line)
    (hend : Terminates terminator rest) :
    nextLine (line ++ (terminator ++ rest)) = .line line rest := by
  obtain ⟨c, more, hcons, hc⟩ := hend.exists_cons
  have hat : lineEndAt? (line ++ (terminator ++ rest)) = some (octetCount line) := by
    rw [hcons]
    exact lineEndAt?_append hline hc
  have hne : (line ++ (terminator ++ rest)).isEmpty = false := by simp [hcons]
  simp only [nextLine, hne, hat, divideAt_append, hend.terminatorWidth_append, Bool.false_eq_true,
    if_false]

/-- A clear text is one line, unless it is empty. -/
theorem nextLine_of_isClear {cs : List Char} (hne : cs ≠ []) (h : IsClear cs) :
    nextLine cs = .line cs [] := by
  simp [nextLine, hne, lineEndAt?_of_isClear h]

/-- A line end stands at the head of a terminator. -/
theorem exists_terminates {c : Char} (hc : isLineEnd c = true) (rest : List Char) :
    ∃ terminator after, c :: rest = terminator ++ after ∧ Terminates terminator after := by
  simp only [isLineEnd, Bool.or_eq_true, decide_eq_true_eq] at hc
  by_cases hpair : c = '\r' ∧ rest.head? = some '\n'
  · obtain ⟨rfl, hhead⟩ := hpair
    obtain ⟨after, rfl⟩ := List.head?_eq_some_iff.mp hhead
    exact ⟨['\r', '\n'], after, rfl, by simp [terminators], by simp⟩
  · refine ⟨[c], rest, rfl, ?_, ?_⟩
    · rcases hc with ((rfl | rfl) | rfl) | rfl <;> simp [terminators]
    · intro h hhead
      exact hpair ⟨by simpa using h, hhead⟩

/-- A text is clear, or it is a clear line, a terminator and a rest. -/
theorem isClear_or_exists_terminates (cs : List Char) :
    IsClear cs ∨ ∃ line terminator rest,
      cs = line ++ (terminator ++ rest) ∧ IsClear line ∧ Terminates terminator rest := by
  induction cs with
  | nil => exact Or.inl fun c hc => nomatch hc
  | cons c cs ih =>
      cases hc : isLineEnd c with
      | true =>
          obtain ⟨terminator, rest, heq, hend⟩ := exists_terminates hc cs
          exact Or.inr ⟨[], terminator, rest, heq, fun d hd => (nomatch hd), hend⟩
      | false =>
          rcases ih with hclear | ⟨line, terminator, rest, rfl, hline, hend⟩
          · exact Or.inl (isClear_cons.mpr ⟨hc, hclear⟩)
          · exact Or.inr ⟨c :: line, terminator, rest, rfl, isClear_cons.mpr ⟨hc, hline⟩, hend⟩

/-- Reading a line takes something away. -/
theorem length_lt_of_nextLine {cs line rest : List Char} (h : nextLine cs = .line line rest) :
    rest.length < cs.length := by
  by_cases hne : cs = []
  · subst hne
    cases h
  · rcases isClear_or_exists_terminates cs
        with hclear | ⟨before, terminator, after, rfl, hline, hend⟩
    · rw [nextLine_of_isClear hne hclear] at h
      cases h
      exact List.length_pos_iff.mpr hne
    · rw [nextLine_append hline hend] at h
      cases h
      obtain ⟨c, more, rfl, -⟩ := hend.exists_cons
      simp only [List.length_append, List.length_cons]
      omega

/-- Reads lines until nothing is left.  There is no result if a cut would tear a character. -/
def readLines (cs : List Char) : Option (List (List Char)) :=
  match h : nextLine cs with
  | .finished => some []
  | .line line rest =>
    have := length_lt_of_nextLine h
    (readLines rest).map (line :: ·)
  | .torn => none
termination_by cs.length

/-- Nothing has no lines. -/
theorem readLines_nil : readLines [] = some [] := by
  rw [readLines]
  rfl

/-- Reading goes on where a line ended. -/
theorem readLines_of_nextLine {cs line rest : List Char} (h : nextLine cs = .line line rest) :
    readLines cs = (readLines rest).map (line :: ·) := by
  rw [readLines]
  split
  · rename_i hnext
    rw [h] at hnext
    cases hnext
  · rename_i hnext
    rw [h] at hnext
    cases hnext
    rfl
  · rename_i hnext
    rw [h] at hnext
    cases hnext

/-- No character is torn: the cuts are made at a line end and behind its terminator. -/
theorem readLines_isSome (cs : List Char) : (readLines cs).isSome := by
  induction hlen : cs.length using Nat.strongRecOn generalizing cs with
  | ind n ih =>
      by_cases hne : cs = []
      · rw [hne, readLines_nil]
        rfl
      · rcases isClear_or_exists_terminates cs
            with hclear | ⟨line, terminator, rest, hcs, hline, hend⟩
        · rw [readLines_of_nextLine (nextLine_of_isClear hne hclear), readLines_nil]
          rfl
        · have hnext : nextLine cs = .line line rest := by
            rw [hcs]
            exact nextLine_append hline hend
          have hshorter := length_lt_of_nextLine hnext
          rw [readLines_of_nextLine hnext, Option.isSome_map]
          exact ih rest.length (by omega) rest rfl

/-- The lines of a script, without their terminators. -/
def scriptLines (cs : List Char) : List (List Char) := (readLines cs).get (readLines_isSome cs)

/-- Reading a script to its end gives its lines. -/
theorem readLines_eq_some (cs : List Char) : readLines cs = some (scriptLines cs) :=
  (Option.some_get _).symm

/-- A script of nothing has no lines. -/
@[simp] theorem scriptLines_nil : scriptLines [] = [] := by
  simp [scriptLines, readLines_nil]

/-- The lines of a script go on behind the first terminator. -/
theorem scriptLines_append {line terminator rest : List Char} (hline : IsClear line)
    (hend : Terminates terminator rest) :
    scriptLines (line ++ (terminator ++ rest)) = line :: scriptLines rest := by
  simp [scriptLines, readLines_of_nextLine (nextLine_append hline hend)]

/-- A script without line ends is one line. -/
theorem scriptLines_of_isClear {cs : List Char} (hne : cs ≠ []) (h : IsClear cs) :
    scriptLines cs = [cs] := by
  simp [scriptLines, readLines_of_nextLine (nextLine_of_isClear hne h), readLines_nil]

/-- Puts a character in front of the first line, which it starts if there is none. -/
def extendFirst (c : Char) : List (List Char) → List (List Char)
  | [] => [[c]]
  | line :: lines => (c :: line) :: lines

/-- The lines of a text that are ended by line feeds alone, or by carriage return and line feed. -/
def newlineLines : List Char → List (List Char)
  | [] => []
  | '\n' :: rest => [] :: newlineLines rest
  | '\r' :: '\n' :: rest => [] :: newlineLines rest
  | c :: rest => extendFirst c (newlineLines rest)

/-- The lines of a script, as strings. -/
def linesOf (source : String) : List String := (scriptLines source.toList).map String.ofList

end EngineFuzz.Text
