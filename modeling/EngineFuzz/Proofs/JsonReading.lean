import EngineFuzz.Proofs.JsonWords
/-!
# Reading JSON texts

A value is told by its first character.  A word goes as far as there are characters of words,
and a text to its closing quotation mark; arrays and objects hold entries, and what stands
behind an entry, blanks apart, tells whether there is one more.  Behind a value there is a
blank, a mark or nothing at all, so no word goes on there.

The reader below finds the value of every text of the grammar, and no value of any other text.
So the grammar gives each text one value at most, and any two readers that follow it agree.

* `value?`, `read?` — the reader;
* `container?_joined`, `exists_joined_of_container?` — entries with commas between them;
* `IsValue.value?_append`, `exists_of_value?` — the two directions;
* `read?_eq_some_iff` — the reader against the grammar.
-/

namespace EngineFuzz.Json

open Text (BeginsOutside span_append beginsOutside_cons)

/-! ### Readers -/

/-- The characters that stand for themselves between values. -/
def marks : List Char := [',', ':', '[', ']', '{', '}', '"']

/-- The characters that words are made of: all but blanks and marks. -/
def isWordChar (c : Char) : Bool := !isBlank c && !marks.contains c

/-- Entries with commas between them, up to a closing mark.  There are not more than `bound`. -/
def entries? {α : Type} (element? : List Char → Option (α × List Char)) (closing : Char) :
    (bound : Nat) → List Char → Option (List α × List Char)
  | 0, _ => none
  | bound + 1, cs =>
    (element? cs).bind fun (first, rest) =>
      match rest.dropWhile isBlank with
      | [] => none
      | c :: after =>
        if c = ',' then
          (entries? element? closing bound after).map fun (others, left) => (first :: others, left)
        else if c = closing then some ([first], after)
        else none

/-- The same, if there are any. -/
def container? {α : Type} (element? : List Char → Option (α × List Char))
    (closing : Char) (bound : Nat) (cs : List Char) : Option (List α × List Char) :=
  if (cs.dropWhile isBlank).head? = some closing then some ([], (cs.dropWhile isBlank).tail)
  else entries? element? closing bound cs

/-- A value behind blanks. -/
def item? (value? : List Char → Option (Value × List Char)) (cs : List Char) :
    Option (Value × List Char) := value? (cs.dropWhile isBlank)

/-- The name of a field, up to its colon. -/
def label? (cs : List Char) : Option (String × List Char) :=
  match cs.dropWhile isBlank with
  | [] => none
  | c :: rest =>
    if c = '"' then
      (body? rest).bind fun (name, after) =>
        match after.dropWhile isBlank with
        | [] => none
        | d :: behind => if d = ':' then some (String.ofList name, behind) else none
    else none

/-- A field: a name, and a value. -/
def field? (value? : List Char → Option (Value × List Char)) (cs : List Char) :
    Option ((String × Value) × List Char) :=
  (label? cs).bind fun (name, rest) =>
    (item? value? rest).map fun (value, after) => ((name, value), after)

/-- A value.  Values are not nested more than `bound` deep. -/
def value? : (bound : Nat) → List Char → Option (Value × List Char)
  | 0, _ => none
  | _ + 1, [] => none
  | bound + 1, c :: rest =>
    if c = '"' then
      (body? rest).map fun (content, after) => (.text (String.ofList content), after)
    else if c = '[' then
      (container? (item? (value? bound)) ']' bound rest).map fun (items, after) =>
        (.array items, after)
    else if c = '{' then
      (container? (field? (value? bound)) '}' bound rest).map fun (fields, after) =>
        (.object fields, after)
    else
      (word? ((c :: rest).takeWhile isWordChar)).map fun value =>
        (value, (c :: rest).dropWhile isWordChar)

/-- Reads a text that holds one value. -/
def read? (text : String) : Option Value :=
  (value? (text.toList.length + 1) (text.toList.dropWhile isBlank)).bind fun (value, rest) =>
    if rest.dropWhile isBlank = [] then some value else none

section Blanks

variable {blanks cs rest : List Char}

/-- Blanks are passed over up to another character. -/
theorem IsBlanks.dropWhile_append (h : IsBlanks blanks) (hrest : BeginsOutside isBlank rest) :
    (blanks ++ rest).dropWhile isBlank = rest :=
  (span_append h hrest).2

/-- What is passed over are blanks. -/
theorem exists_blanks_append (cs : List Char) :
    ∃ blanks, IsBlanks blanks ∧ cs = blanks ++ cs.dropWhile isBlank :=
  ⟨cs.takeWhile isBlank, fun _ hc => List.mem_takeWhile_imp hc,
    List.takeWhile_append_dropWhile.symm⟩

/-- A word does not go on behind blanks and a mark. -/
theorem IsBlanks.beginsOutside_append (h : IsBlanks blanks) {c : Char} (hc : isWordChar c = false)
    (rest : List Char) : BeginsOutside isWordChar (blanks ++ c :: rest) := by
  cases blanks with
  | nil => exact beginsOutside_cons hc rest
  | cons b blanks =>
    have hb : isBlank b = true := h b (by simp)
    exact beginsOutside_cons (by simp [isWordChar, hb]) _

end Blanks

section Entries

variable {α : Type} {element? : List Char → Option (α × List Char)} {closing : Char}

/-- Cells before the rest, the first of them taken apart. -/
theorem Cell.joined_cons_cons (cell next : Cell α) (cells : List (Cell α)) :
    joined (cell :: next :: cells) = cell.chars ++ ',' :: joined (next :: cells) := rfl

/-- The cells after the first stand behind commas. -/
theorem Cell.joined_cons (cell : Cell α) (cells : List (Cell α)) :
    joined (cell :: cells) = cell.chars ++ cells.flatMap fun next => ',' :: next.chars := by
  induction cells generalizing cell with
  | nil => simp [joined]
  | cons next cells ih => rw [joined_cons_cons, ih, List.flatMap_cons, List.cons_append]

/-- There are not more cells than characters, and one comma less than cells. -/
theorem Cell.length_le_length_joined (cells : List (Cell α)) :
    cells.length ≤ (joined cells).length + 1 := by
  induction cells with
  | nil => simp
  | cons cell cells ih =>
    cases cells with
    | nil => simp
    | cons next cells =>
      simp only [joined_cons_cons, List.length_append, List.length_cons] at ih ⊢
      omega

/-- The spelling of a value is not longer than the cells around it. -/
theorem Cell.length_spelling_le {cell : Cell α} {cells : List (Cell α)} (h : cell ∈ cells) :
    cell.spelling.length ≤ (joined cells).length := by
  induction cells with
  | nil => cases h
  | cons first cells ih =>
    have hchars : ∀ cell : Cell α, cell.spelling.length ≤ cell.chars.length := by
      intro cell
      rw [chars, List.length_append, List.length_append]
      omega
    cases cells with
    | nil =>
      obtain rfl := List.mem_singleton.mp h
      exact hchars cell
    | cons next cells =>
      rw [joined_cons_cons, List.length_append, List.length_cons]
      rcases List.mem_cons.mp h with rfl | h
      · have hcell := hchars cell
        omega
      · have hothers := ih h
        omega

/-- What is done behind an entry depends on the first character that is no blank. -/
theorem entries?_of_entry {cs blanks after : List Char} {c : Char} {first : α} {bound : Nat}
    (hentry : element? cs = some (first, blanks ++ c :: after)) (hblanks : IsBlanks blanks)
    (hc : isBlank c = false) :
    entries? element? closing (bound + 1) cs =
      if c = ',' then
        (entries? element? closing bound after).map fun (others, left) => (first :: others, left)
      else if c = closing then some ([first], after)
      else none := by
  rw [entries?, hentry, Option.bind_some]
  simp only [hblanks.dropWhile_append (beginsOutside_cons hc after)]

/-- **Entries are read** if each of them is, whatever stands behind it. -/
theorem entries?_joined (hmark : isWordChar closing = false) (hblank : isBlank closing = false)
    (hcomma : closing ≠ ',') {cells : List (Cell α)} (hne : cells ≠ [])
    (hentries : ∀ cell ∈ cells, ∀ rest, BeginsOutside isWordChar rest →
      element? (cell.lead ++ (cell.spelling ++ rest)) = some (cell.entry, rest))
    (htrails : ∀ cell ∈ cells, IsBlanks cell.trail) {last : List Char} (hlast : IsBlanks last)
    {bound : Nat} (hbound : cells.length ≤ bound) (rest : List Char) :
    entries? element? closing bound (Cell.joined cells ++ (last ++ closing :: rest)) =
      some (cells.map Cell.entry, rest) := by
  induction cells generalizing bound with
  | nil => exact absurd rfl hne
  | cons cell cells ih =>
    rw [List.length_cons] at hbound
    obtain ⟨bound, rfl⟩ : ∃ n, bound = n + 1 := ⟨bound - 1, by omega⟩
    obtain ⟨hentry, hentries⟩ := List.forall_mem_cons.mp hentries
    obtain ⟨htrail, htrails⟩ := List.forall_mem_cons.mp htrails
    cases cells with
    | nil =>
      have hblanks : IsBlanks (cell.trail ++ last) := by
        intro c hc
        rcases List.mem_append.mp hc with hc | hc
        · exact htrail c hc
        · exact hlast c hc
      have hread := hentry _ (hblanks.beginsOutside_append hmark rest)
      have hsplit : Cell.joined [cell] ++ (last ++ closing :: rest) =
          cell.lead ++ (cell.spelling ++ ((cell.trail ++ last) ++ closing :: rest)) := by
        simp [Cell.joined, Cell.chars]
      rw [hsplit, entries?_of_entry hread hblanks hblank, if_neg hcomma, if_pos rfl]
      rfl
    | cons next cells =>
      have hread := hentry _ (htrail.beginsOutside_append (by decide : isWordChar ',' = false)
        (Cell.joined (next :: cells) ++ (last ++ closing :: rest)))
      have hsplit : Cell.joined (cell :: next :: cells) ++ (last ++ closing :: rest) =
          cell.lead ++ (cell.spelling ++
            (cell.trail ++ ',' :: (Cell.joined (next :: cells) ++ (last ++ closing :: rest)))) := by
        simp [Cell.joined, Cell.chars]
      rw [hsplit, entries?_of_entry hread htrail (by decide), if_pos rfl,
        ih (by simp) hentries htrails (by omega)]
      rfl

/-- Entries that are read are written with commas between them. -/
theorem exists_joined_of_entries? {IsEntry : List Char → List Char → α → Prop}
    (hentry : ∀ cs a rest, element? cs = some (a, rest) →
      ∃ lead spelling, IsEntry lead spelling a ∧ cs = lead ++ (spelling ++ rest))
    {bound : Nat} {cs rest : List Char} {entries : List α}
    (h : entries? element? closing bound cs = some (entries, rest)) :
    ∃ cells : List (Cell α), cells.map Cell.entry = entries ∧
      (∀ cell ∈ cells, IsEntry cell.lead cell.spelling cell.entry ∧ IsBlanks cell.trail) ∧
      cells ≠ [] ∧ cs = Cell.joined cells ++ closing :: rest := by
  induction bound generalizing cs entries with
  | zero => cases h
  | succ bound ih =>
    rw [entries?, Option.bind_eq_some_iff] at h
    obtain ⟨⟨first, behind⟩, hfirst, h⟩ := h
    obtain ⟨lead, spelling, hspelling, rfl⟩ := hentry _ _ _ hfirst
    obtain ⟨trail, htrail, hbehind⟩ := exists_blanks_append behind
    cases hdrop : behind.dropWhile isBlank with
    | nil =>
      simp only [hdrop] at h
      cases h
    | cons c after =>
      simp only [hdrop] at h hbehind
      split at h
      · next hcomma =>
        subst hcomma
        obtain ⟨⟨others, left⟩, hothers, hpair⟩ := Option.map_eq_some_iff.mp h
        obtain ⟨rfl, rfl⟩ := Prod.mk.inj hpair
        obtain ⟨cells, rfl, hcells, hne, rfl⟩ := ih hothers
        obtain ⟨next, cells, rfl⟩ := List.exists_cons_of_ne_nil hne
        refine ⟨⟨lead, spelling, trail, first⟩ :: next :: cells, rfl, ?_, by simp, ?_⟩
        · exact List.forall_mem_cons.mpr ⟨⟨hspelling, htrail⟩, hcells⟩
        · simp [Cell.joined, Cell.chars, hbehind]
      · split at h
        · next hclosing =>
          subst hclosing
          obtain ⟨rfl, rfl⟩ := Prod.mk.inj (Option.some.inj h)
          refine ⟨[⟨lead, spelling, trail, first⟩], rfl, ?_, by simp, ?_⟩
          · intro cell hcell
            obtain rfl := List.mem_singleton.mp hcell
            exact ⟨hspelling, htrail⟩
          · simp [Cell.joined, Cell.chars, hbehind]
        · cases h

/-- Whether there are any entries is seen from the first character that is no blank. -/
theorem container?_joined (hmark : isWordChar closing = false) (hblank : isBlank closing = false)
    (hcomma : closing ≠ ',') {cells : List (Cell α)}
    (hentries : ∀ cell ∈ cells, ∀ rest, BeginsOutside isWordChar rest →
      element? (cell.lead ++ (cell.spelling ++ rest)) = some (cell.entry, rest))
    (hheads : ∀ cell ∈ cells, ∀ rest,
      ((cell.lead ++ (cell.spelling ++ rest)).dropWhile isBlank).head? ≠ some closing)
    (htrails : ∀ cell ∈ cells, IsBlanks cell.trail) {last : List Char} (hlast : IsBlanks last)
    {bound : Nat} (hbound : cells.length ≤ bound) (rest : List Char) :
    container? element? closing bound (Cell.joined cells ++ (last ++ closing :: rest)) =
      some (cells.map Cell.entry, rest) := by
  cases cells with
  | nil =>
    have hdrop : (Cell.joined ([] : List (Cell α)) ++ (last ++ closing :: rest)).dropWhile isBlank =
        closing :: rest := hlast.dropWhile_append (beginsOutside_cons hblank rest)
    rw [container?, hdrop]
    exact if_pos rfl
  | cons cell cells =>
    obtain ⟨behind, hbehind⟩ : ∃ behind, Cell.joined (cell :: cells) ++ (last ++ closing :: rest) =
        cell.lead ++ (cell.spelling ++ behind) := by
      cases cells with
      | nil => exact ⟨cell.trail ++ (last ++ closing :: rest), by simp [Cell.joined, Cell.chars]⟩
      | cons next cells =>
        refine ⟨cell.trail ++ ',' :: (Cell.joined (next :: cells) ++ (last ++ closing :: rest)), ?_⟩
        simp [Cell.joined, Cell.chars]
    have hhead := hheads cell (by simp) behind
    rw [← hbehind] at hhead
    rw [container?, if_neg hhead]
    exact entries?_joined hmark hblank hcomma (by simp) hentries htrails hlast hbound rest

/-- What is read up to a closing mark are entries, maybe none. -/
theorem exists_joined_of_container? {IsEntry : List Char → List Char → α → Prop}
    (hentry : ∀ cs a rest, element? cs = some (a, rest) →
      ∃ lead spelling, IsEntry lead spelling a ∧ cs = lead ++ (spelling ++ rest))
    {bound : Nat} {cs rest : List Char} {entries : List α}
    (h : container? element? closing bound cs = some (entries, rest)) :
    ∃ (cells : List (Cell α)) (last : List Char), cells.map Cell.entry = entries ∧
      (∀ cell ∈ cells, IsEntry cell.lead cell.spelling cell.entry ∧ IsBlanks cell.trail) ∧
      IsBlanks last ∧ cs = Cell.joined cells ++ (last ++ closing :: rest) := by
  unfold container? at h
  split at h
  · next hhead =>
    obtain ⟨rfl, rfl⟩ := Prod.mk.inj (Option.some.inj h)
    obtain ⟨last, hlast, hcs⟩ := exists_blanks_append cs
    obtain ⟨after, hafter⟩ := List.head?_eq_some_iff.mp hhead
    refine ⟨[], last, rfl, by simp, hlast, ?_⟩
    rw [hafter] at hcs
    rw [hafter]
    exact hcs
  · obtain ⟨cells, hentries, hcells, -, hcs⟩ := exists_joined_of_entries? hentry h
    exact ⟨cells, [], hentries, hcells, by simp [IsBlanks], hcs⟩

end Entries

section Values

variable {spelling cs rest lead : List Char} {value : Value} {c : Char}

/-- A character of a word is neither a blank nor a mark. -/
theorem isWordChar_iff : isWordChar c = true ↔ isBlank c = false ∧ c ∉ marks := by
  simp [isWordChar]

theorem isWordChar_of_isDigit (h : c.isDigit = true) : isWordChar c = true := by
  have hblank : isBlank c = false := by
    rw [Bool.eq_false_iff]
    intro hc
    simp only [isBlank, Bool.or_eq_true, decide_eq_true_eq] at hc
    rcases hc with ((rfl | rfl) | rfl) | rfl <;> exact absurd h (by decide)
  have hmark : c ∉ marks := by
    intro hc
    have hall : ∀ mark ∈ marks, mark.isDigit = false := by simp [marks]
    exact absurd h (by simp [hall c hc])
  exact isWordChar_iff.mpr ⟨hblank, hmark⟩

theorem isWordChar_of_mem_minus {negative : Bool} (h : c ∈ minus negative) :
    isWordChar c = true := by
  cases negative with
  | false => cases h
  | true =>
    obtain rfl := List.mem_singleton.mp h
    decide

theorem IsDigits.isWordChar (h : IsDigits cs) : ∀ c ∈ cs, isWordChar c = true :=
  fun c hc => isWordChar_of_isDigit (h.2 c hc)

theorem IsFraction.isWordChar (h : IsFraction cs) : ∀ c ∈ cs, isWordChar c = true := by
  cases h with
  | none => exact fun c hc => nomatch hc
  | digits hdigits => exact List.forall_mem_cons.mpr ⟨by decide, hdigits.isWordChar⟩

theorem IsExponent.isWordChar (h : IsExponent cs) : ∀ c ∈ cs, isWordChar c = true := by
  cases h with
  | none => exact fun c hc => nomatch hc
  | @digits mark sign ds hmark hsign hdigits =>
    have hsigns : ∀ sign ∈ [[], ['+'], ['-']], ∀ c ∈ sign, isWordChar c = true := by
      simp [Json.isWordChar, isBlank, marks]
    refine List.forall_mem_cons.mpr ⟨?_, List.forall_mem_append.mpr ⟨hsigns sign hsign, ?_⟩⟩
    · rcases hmark with rfl | rfl <;> decide
    · exact hdigits.isWordChar

/-- Words are made of characters of words, of one at least. -/
theorem IsWord.wordChars (h : IsWord spelling value) :
    spelling ≠ [] ∧ ∀ c ∈ spelling, isWordChar c = true := by
  cases h with
  | null | truth | falsehood => exact ⟨by decide, by simp [isWordChar, isBlank, marks]⟩
  | integer negative h =>
    refine ⟨by simp [h.1.1], List.forall_mem_append.mpr ⟨?_, h.1.isWordChar⟩⟩
    exact fun c hc => isWordChar_of_mem_minus hc
  | decimal negative h hfraction hexponent =>
    refine ⟨by simp [h.1.1],
      List.forall_mem_append.mpr ⟨?_, List.forall_mem_append.mpr ⟨h.1.isWordChar,
      List.forall_mem_append.mpr ⟨hfraction.isWordChar, hexponent.isWordChar⟩⟩⟩⟩
    exact fun c hc => isWordChar_of_mem_minus hc

/-- The first character of a value is no blank and closes nothing. -/
theorem IsValue.exists_cons (h : IsValue spelling value) :
    ∃ d ds, spelling = d :: ds ∧ isBlank d = false ∧ d ≠ ']' ∧ d ≠ '}' := by
  cases h with
  | word h =>
    obtain ⟨hne, hchars⟩ := h.wordChars
    cases spelling with
    | nil => exact absurd rfl hne
    | cons d ds =>
      obtain ⟨hblank, hmark⟩ := isWordChar_iff.mp (hchars d (by simp))
      refine ⟨d, ds, rfl, hblank, ?_, ?_⟩ <;> rintro rfl <;> exact hmark (by decide)
  | text | array | object => exact ⟨_, _, rfl, by decide, by decide, by decide⟩

/-- Blanks before a value are passed over. -/
theorem IsValue.dropWhile_append (h : IsValue spelling value) (hlead : IsBlanks lead)
    (rest : List Char) : (lead ++ (spelling ++ rest)).dropWhile isBlank = spelling ++ rest := by
  obtain ⟨d, ds, rfl, hd, -⟩ := h.exists_cons
  exact hlead.dropWhile_append (beginsOutside_cons hd _)

/-- A label is read up to its colon. -/
theorem label?_append {before body name after : List Char} (hbefore : IsBlanks before)
    (hbody : IsBody body name) (hafter : IsBlanks after) (rest : List Char) :
    label? (before ++ '"' :: (body ++ '"' :: (after ++ ':' :: rest))) =
      some (String.ofList name, rest) := by
  have hquote : isBlank '"' = false := by decide
  have hcolon : isBlank ':' = false := by decide
  have hdrop := hbefore.dropWhile_append (beginsOutside_cons hquote
    (body ++ '"' :: (after ++ ':' :: rest)))
  have hbehind := hafter.dropWhile_append (beginsOutside_cons hcolon rest)
  simp only [label?, hdrop, if_true, hbody.body?_append, Option.bind_some, hbehind]

/-- What is read up to a colon is a label. -/
theorem exists_of_label? {name : String} (h : label? cs = some (name, rest)) :
    ∃ before body after, IsBlanks before ∧ IsBody body name.toList ∧ IsBlanks after ∧
      cs = before ++ '"' :: (body ++ '"' :: (after ++ ':' :: rest)) := by
  obtain ⟨before, hbefore, hcs⟩ := exists_blanks_append cs
  unfold label? at h
  split at h
  · cases h
  · next c after hdrop =>
    split at h
    · next hquote =>
      obtain ⟨⟨content, behind⟩, hbody, h⟩ := Option.bind_eq_some_iff.mp h
      obtain ⟨body, hbody, hafter⟩ := exists_of_body? hbody
      obtain ⟨blanks, hblanks, hbehind⟩ := exists_blanks_append behind
      cases hcolon : behind.dropWhile isBlank with
      | nil =>
        simp only [hcolon] at h
        cases h
      | cons d left =>
        simp only [hcolon] at h
        split at h
        · next hd =>
          obtain ⟨rfl, rfl⟩ := Prod.mk.inj (Option.some.inj h)
          refine ⟨before, body, blanks, hbefore, ?_, hblanks, ?_⟩
          · rwa [String.toList_ofList]
          · rw [hcolon, hd] at hbehind
            rw [hcs, hdrop, hquote, hafter, hbehind]
        · cases h
    · cases h

/-- An item behind blanks is read. -/
theorem IsValue.item?_append {value? : List Char → Option (Value × List Char)}
    (h : IsValue spelling value) (hread : value? (spelling ++ rest) = some (value, rest))
    (hlead : IsBlanks lead) : item? value? (lead ++ (spelling ++ rest)) = some (value, rest) := by
  rw [item?, h.dropWhile_append hlead, hread]

/-- A field behind its label is read. -/
theorem IsValue.field?_append {value? : List Char → Option (Value × List Char)} {name : String}
    (h : IsValue spelling value) (hread : value? (spelling ++ rest) = some (value, rest))
    (hlabel : IsLabel lead name) :
    field? value? (lead ++ (spelling ++ rest)) = some ((name, value), rest) := by
  obtain ⟨before, body, after, behind, hbefore, hbody, hafter, hbehind, rfl⟩ := hlabel
  have hlabel := label?_append hbefore hbody hafter (behind ++ (spelling ++ rest))
  rw [String.ofList_toList] at hlabel
  have hsplit : before ++ '"' :: (body ++ '"' :: (after ++ ':' :: behind)) ++ (spelling ++ rest) =
      before ++ '"' :: (body ++ '"' :: (after ++ ':' :: (behind ++ (spelling ++ rest)))) := by
    simp
  rw [hsplit, field?, hlabel, Option.bind_some]
  simp only [h.item?_append hread hbehind, Option.map_some]

/-- The first character of a label, blanks apart, is a quotation mark. -/
theorem IsLabel.head?_dropWhile {name : String} (h : IsLabel lead name) (rest : List Char) :
    ((lead ++ rest).dropWhile isBlank).head? = some '"' := by
  obtain ⟨before, body, after, behind, hbefore, -, -, -, rfl⟩ := h
  have hquote : isBlank '"' = false := by decide
  rw [List.append_assoc, List.cons_append, hbefore.dropWhile_append (beginsOutside_cons hquote _)]
  rfl

/-- **Every spelling of a value is read**, whatever stands behind it. -/
theorem IsValue.value?_append (h : IsValue spelling value) {bound : Nat}
    (hbound : spelling.length ≤ bound) {rest : List Char} (hrest : BeginsOutside isWordChar rest) :
    value? bound (spelling ++ rest) = some (value, rest) := by
  induction h generalizing bound rest with
  | @word spelling value h =>
    obtain ⟨hne, hchars⟩ := h.wordChars
    obtain ⟨htake, hdrop⟩ := span_append hchars hrest
    obtain ⟨d, ds, rfl⟩ := List.exists_cons_of_ne_nil hne
    obtain ⟨-, hmark⟩ := isWordChar_iff.mp (hchars d (by simp))
    obtain ⟨bound, rfl⟩ : ∃ n, bound = n + 1 := ⟨bound - 1, by simp at hbound; omega⟩
    have hother : ∀ mark ∈ marks, d ≠ mark := by
      intro mark hmem hd
      exact hmark (hd ▸ hmem)
    rw [List.cons_append] at htake hdrop
    rw [List.cons_append, value?, if_neg (hother '"' (by decide)), if_neg (hother '[' (by decide)),
      if_neg (hother '{' (by decide)), htake, hdrop, word?_eq_some_iff.mpr h]
    rfl
  | @text body content h =>
    obtain ⟨bound, rfl⟩ : ∃ n, bound = n + 1 := ⟨bound - 1, by simp at hbound; omega⟩
    rw [List.cons_append, List.append_assoc, List.singleton_append, value?, if_pos rfl,
      h.body?_append]
    rfl
  | @array cells last hblanks hlast hvalues ih =>
    simp only [List.length_cons, List.length_append] at hbound
    obtain ⟨bound, rfl⟩ : ∃ n, bound = n + 1 := ⟨bound - 1, by omega⟩
    have hcells := Cell.length_le_length_joined cells
    have hread : container? (item? (value? bound)) ']' bound
        (Cell.joined cells ++ (last ++ ']' :: rest)) = some (cells.map Cell.entry, rest) := by
      refine container?_joined (by decide) (by decide) (by decide) ?_ ?_
        (fun cell hcell => (hblanks cell hcell).2) hlast (by omega) rest
      · intro cell hcell rest hrest
        have hspelling := Cell.length_spelling_le hcell
        exact (hvalues cell hcell).item?_append (ih cell hcell (by omega) hrest)
          (hblanks cell hcell).1
      · intro cell hcell rest
        obtain ⟨d, ds, hspelling, -, hd, -⟩ := (hvalues cell hcell).exists_cons
        rw [(hvalues cell hcell).dropWhile_append (hblanks cell hcell).1, hspelling]
        simpa using hd
    have hsplit : '[' :: (Cell.joined cells ++ (last ++ [']'])) ++ rest =
        '[' :: (Cell.joined cells ++ (last ++ ']' :: rest)) := by
      simp
    rw [hsplit, value?, if_neg (by decide), if_pos rfl, hread]
    rfl
  | @object cells last hlabels hlast hvalues ih =>
    simp only [List.length_cons, List.length_append] at hbound
    obtain ⟨bound, rfl⟩ : ∃ n, bound = n + 1 := ⟨bound - 1, by omega⟩
    have hcells := Cell.length_le_length_joined cells
    have hread : container? (field? (value? bound)) '}' bound
        (Cell.joined cells ++ (last ++ '}' :: rest)) = some (cells.map Cell.entry, rest) := by
      refine container?_joined (by decide) (by decide) (by decide) ?_ ?_
        (fun cell hcell => (hlabels cell hcell).2) hlast (by omega) rest
      · intro cell hcell rest hrest
        have hspelling := Cell.length_spelling_le hcell
        exact (hvalues cell hcell).field?_append (ih cell hcell (by omega) hrest)
          (hlabels cell hcell).1
      · intro cell hcell rest
        rw [(hlabels cell hcell).1.head?_dropWhile]
        decide
    have hsplit : '{' :: (Cell.joined cells ++ (last ++ ['}'])) ++ rest =
        '{' :: (Cell.joined cells ++ (last ++ '}' :: rest)) := by
      simp
    rw [hsplit, value?, if_neg (by decide), if_neg (by decide), if_pos rfl, hread]
    rfl

/-- What is read as an item is a value behind blanks, if values are read right. -/
theorem exists_of_item? {value? : List Char → Option (Value × List Char)}
    (hvalue : ∀ cs value rest, value? cs = some (value, rest) →
      ∃ spelling, IsValue spelling value ∧ cs = spelling ++ rest)
    (h : item? value? cs = some (value, rest)) :
    ∃ lead spelling, (IsBlanks lead ∧ IsValue spelling value) ∧
      cs = lead ++ (spelling ++ rest) := by
  obtain ⟨lead, hlead, hcs⟩ := exists_blanks_append cs
  obtain ⟨spelling, hspelling, hdrop⟩ := hvalue _ _ _ h
  exact ⟨lead, spelling, ⟨hlead, hspelling⟩, by rw [hcs, hdrop]⟩

/-- What is read as a field is a value behind a label. -/
theorem exists_of_field? {value? : List Char → Option (Value × List Char)} {field : String × Value}
    (hvalue : ∀ cs value rest, value? cs = some (value, rest) →
      ∃ spelling, IsValue spelling value ∧ cs = spelling ++ rest)
    (h : field? value? cs = some (field, rest)) :
    ∃ lead spelling, (IsLabel lead field.1 ∧ IsValue spelling field.2) ∧
      cs = lead ++ (spelling ++ rest) := by
  obtain ⟨⟨name, after⟩, hlabel, hread⟩ := Option.bind_eq_some_iff.mp h
  obtain ⟨⟨found, left⟩, hfound, hpair⟩ := Option.map_eq_some_iff.mp hread
  obtain ⟨rfl, rfl⟩ := Prod.mk.inj hpair
  obtain ⟨before, body, blanks, hbefore, hbody, hblanks, rfl⟩ := exists_of_label? hlabel
  obtain ⟨behind, spelling, ⟨hbehind, hspelling⟩, rfl⟩ := exists_of_item? hvalue hfound
  refine ⟨before ++ '"' :: (body ++ '"' :: (blanks ++ ':' :: behind)), spelling,
    ⟨⟨before, body, blanks, behind, hbefore, hbody, hblanks, hbehind, rfl⟩, hspelling⟩, ?_⟩
  simp

/-- **What is read as a value is a spelling of it.** -/
theorem exists_of_value? {bound : Nat} (h : value? bound cs = some (value, rest)) :
    ∃ spelling, IsValue spelling value ∧ cs = spelling ++ rest := by
  induction bound generalizing cs value rest with
  | zero => cases h
  | succ bound ih =>
    have hvalue : ∀ cs value rest, value? bound cs = some (value, rest) →
        ∃ spelling, IsValue spelling value ∧ cs = spelling ++ rest := fun _ _ _ hread => ih hread
    cases cs with
    | nil => cases h
    | cons c cs =>
      rw [value?] at h
      split at h
      · next hquote =>
        subst hquote
        obtain ⟨⟨content, after⟩, hread, hpair⟩ := Option.map_eq_some_iff.mp h
        obtain ⟨rfl, rfl⟩ := Prod.mk.inj hpair
        obtain ⟨body, hbody, rfl⟩ := exists_of_body? hread
        exact ⟨_, .text hbody, by simp⟩
      · split at h
        · next hopening =>
          subst hopening
          obtain ⟨⟨items, after⟩, hitems, hpair⟩ := Option.map_eq_some_iff.mp h
          obtain ⟨rfl, rfl⟩ := Prod.mk.inj hpair
          obtain ⟨cells, last, rfl, hcells, hlast, rfl⟩ := exists_joined_of_container?
            (fun _ _ _ => exists_of_item? hvalue) hitems
          refine ⟨_,
            .array (fun cell hcell => ⟨(hcells cell hcell).1.1, (hcells cell hcell).2⟩) hlast
            (fun cell hcell => (hcells cell hcell).1.2), by simp⟩
        · split at h
          · next hopening =>
            subst hopening
            obtain ⟨⟨fields, after⟩, hfields, hpair⟩ := Option.map_eq_some_iff.mp h
            obtain ⟨rfl, rfl⟩ := Prod.mk.inj hpair
            obtain ⟨cells, last, rfl, hcells, hlast, rfl⟩ := exists_joined_of_container?
              (fun _ _ _ => exists_of_field? hvalue) hfields
            refine ⟨_,
              .object (fun cell hcell => ⟨(hcells cell hcell).1.1, (hcells cell hcell).2⟩) hlast
              (fun cell hcell => (hcells cell hcell).1.2), by simp⟩
          · obtain ⟨found, hword, hpair⟩ := Option.map_eq_some_iff.mp h
            obtain ⟨rfl, rfl⟩ := Prod.mk.inj hpair
            refine ⟨_, .word (word?_eq_some_iff.mp hword), ?_⟩
            exact List.takeWhile_append_dropWhile.symm

/-- **The reader follows the grammar.**  It finds a value in a text exactly if the text says the
value. -/
theorem read?_eq_some_iff {text : String} : read? text = some value ↔ Says text value := by
  constructor
  · intro h
    obtain ⟨⟨found, rest⟩, hfound, h⟩ := Option.bind_eq_some_iff.mp h
    obtain ⟨hend, rfl⟩ : rest.dropWhile isBlank = [] ∧ found = value := by simpa using h
    obtain ⟨before, hbefore, htext⟩ := exists_blanks_append text.toList
    obtain ⟨spelling, hspelling, hdrop⟩ := exists_of_value? hfound
    obtain ⟨after, hafter, hrest⟩ := exists_blanks_append rest
    rw [hend, List.append_nil] at hrest
    exact ⟨before, spelling, after, hbefore, hspelling, hafter, by rw [htext, hdrop, hrest]⟩
  · intro ⟨before, spelling, after, hbefore, hspelling, hafter, htext⟩
    have hend : BeginsOutside isWordChar after := by
      cases after with
      | nil => exact fun _ hc => nomatch hc
      | cons c after =>
        have hc : isBlank c = true := hafter c (by simp)
        exact beginsOutside_cons (by simp [isWordChar, hc]) _
    have hlength : spelling.length ≤ (before ++ (spelling ++ after)).length + 1 := by
      rw [List.length_append, List.length_append]
      omega
    have hblank : after.dropWhile isBlank = [] := List.dropWhile_eq_nil_iff.mpr hafter
    rw [read?, htext, hspelling.dropWhile_append hbefore, hspelling.value?_append hlength hend,
      Option.bind_some]
    exact if_pos hblank

end Values

end EngineFuzz.Json
