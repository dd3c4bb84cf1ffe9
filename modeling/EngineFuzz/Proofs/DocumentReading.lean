import EngineFuzz.Proofs.DocumentPlaces
import EngineFuzz.Toml.Document
/-!
# Reading a document from another place

What is read depends on the characters that are left, and not on how many have been read before.
Only the places that are remembered with keys and values do, and the places at which reading
fails.  So two readers that stand before the same characters in documents of different lengths
*agree*: both fail, or both read the same but for places and leave the same.

Agreement is kept when readers are put together, so it is shown for the words of a document
first, from the smallest to the keys, and then for values, by one induction on the bound of all
three readers of values.

* `Reader.Agree` — two readers, and how their values are related; `Reader.Steady` — one reader,
  which yields the same value wherever it stands;
* `Reader.Agree.bind`, `Reader.Agree.spanned` — readers that are put together;
* `steadyBy_keyPath`, `steadyBy_values` — keys and values;
* `steadyBy_header`, `steadyBy_keyValue` — the two kinds of statements.
-/

namespace EngineFuzz.Toml

namespace Reader

section Agreement

variable {α β γ δ : Type} {R : α → β → Prop} {S : γ → δ → Prop}

/-- Two readers before the same characters: both fail, or both yield values that are related and
leave the same characters. -/
def Agree (R : α → β → Prop) (first : Reader α) (second : Reader β) : Prop :=
  ∀ total total' cs,
    (∃ place place', first ⟨total, cs⟩ = .error place ∧ second ⟨total', cs⟩ = .error place') ∨
    ∃ a b rest, first ⟨total, cs⟩ = .ok (a, ⟨total, rest⟩) ∧
      second ⟨total', cs⟩ = .ok (b, ⟨total', rest⟩) ∧ R a b

/-- A reader that yields the same value wherever it stands. -/
abbrev Steady (reader : Reader α) : Prop := Agree Eq reader reader

/-- A reader that yields the same value wherever it stands, but for what a function forgets. -/
abbrev SteadyBy (u : α → β) (reader : Reader α) : Prop := Agree (fun a b => u a = u b) reader reader

/-- After a value the next reader goes on from what is left. -/
theorem bind_of_ok {first : Reader α} {next : α → Reader γ} {cursor left : Cursor} {a : α}
    (h : first cursor = .ok (a, left)) : (first >>= next) cursor = next a left := by
  change (first cursor >>= fun (a, left) => next a left) = _
  rw [h]
  rfl

/-- After a failure nothing else is read. -/
theorem bind_of_error {first : Reader α} {next : α → Reader γ} {cursor : Cursor} {place : Nat}
    (h : first cursor = .error place) : (first >>= next) cursor = .error place := by
  change (first cursor >>= fun (a, left) => next a left) = _
  rw [h]
  rfl

namespace Agree

/-- Values that are related. -/
theorem pure {a : α} {b : β} (h : R a b) : Agree R (Pure.pure a) (Pure.pure b) :=
  fun _ _ cs => Or.inr ⟨a, b, cs, rfl, rfl, h⟩

/-- Failures. -/
theorem fail : Agree R (fail : Reader α) (Reader.fail : Reader β) :=
  fun _ _ _ => Or.inl ⟨_, _, rfl, rfl⟩

/-- **Readers one after the other.** -/
theorem bind {first : Reader α} {second : Reader β} {next : α → Reader γ} {next' : β → Reader δ}
    (h : Agree R first second) (hnext : ∀ a b, R a b → Agree S (next a) (next' b)) :
    Agree S (first >>= next) (second >>= next') := by
  intro total total' cs
  rcases h total total' cs
      with ⟨place, place', hfirst, hsecond⟩ | ⟨a, b, rest, hfirst, hsecond, hab⟩
  · exact Or.inl ⟨place, place', bind_of_error hfirst, bind_of_error hsecond⟩
  · rw [bind_of_ok hfirst, bind_of_ok hsecond]
    exact hnext a b hab total total' rest

/-- One reader or the other, as a condition says. -/
theorem ite {first first' : Reader α} {second second' : Reader β} {p : Prop} [Decidable p]
    (h : p → Agree R first second) (h' : ¬p → Agree R first' second') :
    Agree R (if p then first else first') (if p then second else second') := by
  split
  · rename_i hp
    exact h hp
  · rename_i hp
    exact h' hp

/-- One reader, or another if it fails. -/
theorem either {first first' : Reader α} {second second' : Reader β} (h : Agree R first second)
    (h' : Agree R first' second') :
    Agree R (either first first') (Reader.either second second') := by
  intro total total' cs
  rcases h total total' cs
      with ⟨place, place', hfirst, hsecond⟩ | ⟨a, b, rest, hfirst, hsecond, hab⟩
  · have hleft : Reader.either first first' ⟨total, cs⟩ = first' ⟨total, cs⟩ := by
      simp only [Reader.either, hfirst]
    have hright : Reader.either second second' ⟨total', cs⟩ = second' ⟨total', cs⟩ := by
      simp only [Reader.either, hsecond]
    rw [hleft, hright]
    exact h' total total' cs
  · refine Or.inr ⟨a, b, rest, ?_, ?_, hab⟩
    · simp only [Reader.either, hfirst]
    · simp only [Reader.either, hsecond]

/-- Places may be different. -/
theorem offset : Agree (fun _ _ => True) Reader.offset Reader.offset :=
  fun _ _ cs => Or.inr ⟨_, _, cs, rfl, rfl, trivial⟩

/-- Where a value was read may be different. -/
theorem spanned {first : Reader α} {second : Reader β} (h : Agree R first second) :
    Agree (fun a b => R a.2 b.2) (Reader.spanned first) (Reader.spanned second) :=
  offset.bind fun _ _ _ => h.bind fun _ _ hab => offset.bind fun _ _ _ => .pure hab

end Agree

variable {reader : Reader α}

/-- A failure. -/
theorem steady_fail : Steady (fail : Reader α) := .fail

/-- What is left is the same. -/
theorem steady_rest : Steady rest := fun _ _ cs => Or.inr ⟨cs, cs, cs, rfl, rfl, rfl⟩

/-- Going on is the same. -/
theorem steady_goOn (cs : List Char) : Steady (goOn cs) :=
  fun _ _ _ => Or.inr ⟨(), (), cs, rfl, rfl, rfl⟩

/-- A reader after a steady one. -/
theorem Steady.bind {next next' : α → Reader γ} {R : γ → γ → Prop} (h : Steady reader)
    (hnext : ∀ a, Agree R (next a) (next' a)) : Agree R (reader >>= next) (reader >>= next') :=
  Agree.bind h fun a _ heq => heq ▸ hnext a

/-- Reading with a function. -/
theorem steady_via (f : List Char → Option (α × List Char)) : Steady (via f) := by
  refine steady_rest.bind fun cs => ?_
  cases f cs with
  | none => exact .fail
  | some found => exact (steady_goOn _).bind fun _ => .pure rfl

/-- Skipping what may come next. -/
theorem steady_skip? (expected : List Char) : Steady (skip? expected) := by
  refine steady_rest.bind fun cs => ?_
  cases expected.isPrefixOf? cs with
  | none => exact .pure rfl
  | some after => exact (steady_goOn _).bind fun _ => .pure rfl

/-- Skipping what has to come next. -/
theorem steady_skip (expected : List Char) : Steady (skip expected) := by
  refine (steady_skip? expected).bind fun found => ?_
  cases found with
  | true => exact .pure rfl
  | false => exact .fail

/-- The longest run. -/
theorem steady_takeWhile (p : Char → Bool) : Steady (takeWhile p) :=
  steady_rest.bind fun _ => (steady_goOn _).bind fun _ => .pure rfl

end Agreement

end Reader

section Words

open Reader

theorem steady_blanks : Steady blanks := (steady_takeWhile isBlank).bind fun _ => .pure rfl

theorem steady_comment? : Steady comment? := by
  refine (steady_skip? _).bind fun found => .ite (fun _ => ?_) fun _ => .pure rfl
  exact (steady_takeWhile _).bind fun _ => .pure rfl

theorem steady_lineEnd : Steady lineEnd := by
  refine steady_rest.bind fun cs => ?_
  split
  · exact .pure rfl
  · exact steady_goOn _
  · exact .fail

theorem steady_restOfLine : Steady restOfLine :=
  steady_blanks.bind fun _ => steady_comment?.bind fun _ => steady_lineEnd

theorem steady_commentedLines (bound : Nat) : Steady (commentedLines bound) := by
  induction bound with
  | zero => exact .pure rfl
  | succ bound ih =>
    refine steady_rest.bind fun cs => (steady_goOn _).bind fun _ =>
      .ite (fun _ => ?_) fun _ => .pure rfl
    exact steady_comment?.bind fun _ => ih

theorem steady_openingLineEnd : Steady openingLineEnd := by
  refine steady_rest.bind fun cs => ?_
  split
  · exact steady_goOn _
  · exact .pure rfl

theorem steady_string : Steady string := by
  refine steady_rest.bind fun cs => ?_
  dsimp only
  split
  · exact (steady_goOn _).bind fun _ => steady_openingLineEnd.bind fun _ =>
      (steady_via _).bind fun _ =>
      .pure rfl
  · exact (steady_goOn _).bind fun _ => (steady_via _).bind fun _ => .pure rfl
  · exact (steady_goOn _).bind fun _ => steady_openingLineEnd.bind fun _ =>
      (steady_via _).bind fun _ =>
      .pure rfl
  · exact (steady_goOn _).bind fun _ => (steady_via _).bind fun _ => .pure rfl
  · exact steady_fail.bind fun _ => .pure rfl

theorem steady_sign : Steady sign := by
  refine (steady_skip? _).bind fun found => .ite (fun _ => .pure rfl) fun _ => ?_
  exact (steady_skip? _).bind fun _ => .pure rfl

theorem steady_wholeDigits : Steady wholeDigits :=
  (steady_skip? _).bind fun _ => .ite (fun _ => .pure rfl) fun _ => steady_via _

theorem steady_bounded (negative : Bool) (magnitude : Nat) : Steady (bounded negative magnitude) :=
  .ite (fun _ => .ite (fun _ => .pure rfl) fun _ => .fail)
    fun _ => .ite (fun _ => .pure rfl) fun _ => .fail

theorem steady_unsignedIn (base : Nat) (p : Char → Bool) : Steady (unsignedIn base p) :=
  (steady_via _).bind fun _ => steady_bounded _ _

theorem steady_integer : Steady integer := by
  refine steady_rest.bind fun cs => ?_
  split
  · exact (steady_goOn _).bind fun _ => steady_unsignedIn _ _
  · exact (steady_goOn _).bind fun _ => steady_unsignedIn _ _
  · exact (steady_goOn _).bind fun _ => steady_unsignedIn _ _
  · exact steady_sign.bind fun _ => steady_wholeDigits.bind fun _ => steady_bounded _ _

theorem steady_exponent : Steady exponent := by
  have hpower : Steady (do
      let negative ← sign
      let magnitude := numeral 10 (← digits isDecimal)
      return if negative then -(magnitude : Int) else magnitude) :=
    steady_sign.bind fun _ => (steady_via _).bind fun _ => .pure rfl
  refine (steady_skip? _).bind fun found => .ite (fun _ => hpower) fun _ => ?_
  exact (steady_skip _).bind fun _ => hpower

theorem steady_float : Steady float := by
  refine steady_sign.bind fun negative => ?_
  refine (steady_skip? _).bind fun _ => .ite (fun _ => .pure rfl) fun _ => ?_
  refine (steady_skip? _).bind fun _ => .ite (fun _ => .pure rfl) fun _ => ?_
  refine steady_wholeDigits.bind fun whole => (steady_skip? _).bind fun _ => ?_
  have hnumber : ∀ (fraction : List Char) (power : Int), Steady (do
      let number := Binary64.ofDecimal negative (numeral 10 (whole ++ fraction))
          (power - fraction.length)
      if number = .infinite false then Reader.fail
      return number : Reader Binary64) := fun fraction power =>
    .ite (fun _ => steady_fail.bind fun _ => .pure rfl) fun _ => .pure rfl
  have hfraction : ∀ fraction : List Char, Steady (do
      let cs ← Reader.rest
      let power ←
        if cs.head? = some 'e' || cs.head? = some 'E' then exponent
        else if fraction.isEmpty then Reader.fail
        else pure 0
      let number := Binary64.ofDecimal negative (numeral 10 (whole ++ fraction))
          (power - fraction.length)
      if number = .infinite false then Reader.fail
      return number : Reader Binary64) := fun fraction => by
    refine steady_rest.bind fun cs => .ite (fun _ => ?_) fun _ => .ite (fun _ => ?_) fun _ => ?_
    · exact steady_exponent.bind fun power => hnumber fraction power
    · exact steady_fail.bind fun power => hnumber fraction power
    · exact hnumber fraction 0
  exact .ite (fun _ => (steady_via _).bind fun fraction => hfraction fraction) fun _ => hfraction []

theorem steady_fixedDigits (count low high : Nat) : Steady (fixedDigits count low high) :=
  (steady_via _).bind fun _ => .ite (fun _ => .pure rfl) fun _ => .fail

theorem steady_date : Steady date := by
  refine (steady_fixedDigits _ _ _).bind fun year => (steady_skip _).bind fun _ => ?_
  refine (steady_fixedDigits _ _ _).bind fun month => (steady_skip _).bind fun _ => ?_
  exact (steady_fixedDigits _ _ _).bind fun _ => .pure rfl

theorem steady_time : Steady time := by
  refine (steady_fixedDigits _ _ _).bind fun _ => (steady_skip _).bind fun _ => ?_
  refine (steady_fixedDigits _ _ _).bind fun _ => (steady_skip _).bind fun _ => ?_
  refine (steady_fixedDigits _ _ _).bind fun _ => steady_rest.bind fun cs => ?_
  split
  · refine .ite (fun _ => ?_) fun _ => .pure rfl
    exact (steady_skip _).bind fun _ => (steady_takeWhile _).bind fun _ => .pure rfl
  · exact .pure rfl

theorem steady_timeOffset : Steady timeOffset := by
  have hdigits : Steady (do
      let _ ← fixedDigits 2 0 23
      Reader.skip [':']
      let _ ← fixedDigits 2 0 59) :=
    (steady_fixedDigits _ _ _).bind fun _ => (steady_skip _).bind fun _ =>
      (steady_fixedDigits _ _ _).bind fun _ => .pure rfl
  refine (steady_skip? _).bind fun _ => .ite (fun _ => .pure rfl) fun _ => ?_
  refine (steady_skip? _).bind fun _ => .ite (fun _ => .pure rfl) fun _ => ?_
  refine (steady_skip? _).bind fun _ => .ite (fun _ => hdigits) fun _ => ?_
  exact (steady_skip _).bind fun _ => hdigits

theorem steady_timeSeparator : Steady timeSeparator := by
  refine (steady_skip? _).bind fun _ => .ite (fun _ => .pure rfl) fun _ => ?_
  refine (steady_skip? _).bind fun _ => .ite (fun _ => .pure rfl) fun _ => ?_
  exact steady_skip _

theorem steady_datetime : Steady datetime := by
  refine steady_rest.bind fun before => Steady.bind (.either ?_ steady_time) fun _ =>
    steady_rest.bind fun after => .pure rfl
  refine steady_date.bind fun _ => .either ?_ (.pure rfl)
  refine steady_timeSeparator.bind fun _ => steady_time.bind fun _ => ?_
  exact .either steady_timeOffset (.pure rfl)

end Words

section Values

open Reader

variable {limit : Nat}

/-- A path without places. -/
abbrev unplacedPath (path : List Key × Key) : List Key × Key :=
  (path.1.map Key.unplaced, path.2.unplaced)

/-- An entry of an inline table without places. -/
abbrev unplacedPair (pair : List Key × Key × Node) : List Key × Key × Node :=
  (pair.1.map Key.unplaced, pair.2.1.unplaced, pair.2.2.unplaced)

theorem steadyBy_key : SteadyBy Key.unplaced key := by
  refine Agree.bind (R := fun a b => a.2 = b.2) (.spanned ?_) fun a b hab => .pure ?_
  · refine steady_rest.bind fun cs => ?_
    split
    · exact (steady_skip _).bind fun _ => steady_via _
    · exact (steady_skip _).bind fun _ => steady_via _
    · exact (steady_takeWhile _).bind fun _ => .ite (fun _ => .fail) fun _ => .pure rfl
  · rw [Key.unplaced, Key.unplaced, hab]

theorem steadyBy_keyPathFrom (bound : Nat) :
    SteadyBy (List.map Key.unplaced) (keyPathFrom bound) := by
  induction bound with
  | zero => exact .fail
  | succ bound ih =>
    refine steady_blanks.bind fun _ => steadyBy_key.bind fun first first' hfirst => ?_
    refine steady_blanks.bind fun _ => (steady_skip? _).bind fun found =>
      .ite (fun _ => ?_) fun _ => ?_
    · exact ih.bind fun more more' hmore =>
        .pure (by rw [List.map_cons, List.map_cons, hfirst, hmore])
    · exact .pure (by rw [List.map_cons, List.map_cons, hfirst])

/-- The last key of a path and those before it are the same but for places. -/
theorem agree_split {keys keys' : List Key}
    (hkeys : keys.map Key.unplaced = keys'.map Key.unplaced) :
    Agree (fun p p' => unplacedPath p = unplacedPath p')
      (match keys.getLast? with
        | some last => return (keys.dropLast, last)
        | none => Reader.fail)
      (match keys'.getLast? with
        | some last => return (keys'.dropLast, last)
        | none => Reader.fail) := by
  have hlast : keys.getLast?.map Key.unplaced = keys'.getLast?.map Key.unplaced := by
    rw [← List.getLast?_map, hkeys, List.getLast?_map]
  have hinit : keys.dropLast.map Key.unplaced = keys'.dropLast.map Key.unplaced := by
    rw [List.map_dropLast, hkeys, ← List.map_dropLast]
  cases hfound : keys.getLast? <;> cases hfound' : keys'.getLast? <;> rw [hfound, hfound'] at hlast
  · exact .fail
  · cases hlast
  · cases hlast
  · exact .pure (Prod.ext hinit (Option.some.inj hlast))

theorem steadyBy_keyPath : SteadyBy unplacedPath (keyPath limit) := by
  refine steady_rest.bind fun cs => (steadyBy_keyPathFrom _).bind fun keys keys' hkeys => ?_
  have hlength : keys.length = keys'.length := by simpa using congrArg List.length hkeys
  rw [hlength]
  exact .ite (fun _ => steady_fail.bind fun _ => agree_split hkeys) fun _ => agree_split hkeys

/-- What is written in front of entries that have been read does not depend on places. -/
theorem unplaced_assignAll (pairs : List (List Key × Key × Node)) (entries : Entries) :
    (pairs.foldlM (fun entries (path, key, node) => Entries.assign path true key node entries)
      entries).map Entries.unplaced =
    (pairs.map unplacedPair).foldlM
      (fun entries (path, key, node) => Entries.assign path true key node entries)
        entries.unplaced := by
  induction pairs generalizing entries with
  | nil => rfl
  | cons pair rest ih =>
    obtain ⟨path, key, node⟩ := pair
    have hassign := Entries.unplaced_assign path true key node entries
    rw [List.foldlM_cons, List.map_cons, List.foldlM_cons]
    change Option.map _ (Entries.assign path true key node entries >>= _) =
      (Entries.assign (path.map Key.unplaced) true key.unplaced node.unplaced
        entries.unplaced >>= _)
    rw [← hassign]
    cases Entries.assign path true key node entries with
    | none => rfl
    | some changed => exact ih changed

/-- An inline table does not depend on places. -/
theorem unplaced_inlineTable (pairs : List (List Key × Key × Node)) :
    (inlineTable pairs).map Node.unplacedEntries = inlineTable (pairs.map unplacedPair) :=
  map_bind_eq (v := Node.unplacedEntries) (unplaced_assignAll pairs [])
    fun found => (Draft.toNodes_unplacedEntries found).symm

/-- A table in braces is the same but for places if its entries are. -/
theorem steadyBy_bracedTable {bound depth : Nat}
    (hpairs : SteadyBy (List.map unplacedPair) (pairs limit bound depth true)) :
    SteadyBy Node.unplaced (do
      let (span, entries) ← Reader.spanned do
        Reader.skip ['{']
        let pairs ← pairs limit bound depth true
        match inlineTable pairs with
        | some entries => return entries
        | none => Reader.fail
      return .table (some span) entries) := by
  have hentries : SteadyBy Node.unplacedEntries (do
      Reader.skip ['{']
      let pairs ← pairs limit bound depth true
      match inlineTable pairs with
      | some entries => return entries
      | none => Reader.fail) := by
    refine (steady_skip _).bind fun _ => hpairs.bind fun ps ps' hps => ?_
    have hmade := (unplaced_inlineTable ps).trans ((congrArg inlineTable hps).trans
      (unplaced_inlineTable ps').symm)
    cases hfound : inlineTable ps <;> cases hfound' : inlineTable ps' <;>
      rw [hfound, hfound'] at hmade
    · exact .fail
    · cases hmade
    · cases hmade
    · exact .pure (Option.some.inj hmade)
  refine (Agree.spanned hentries).bind fun a b hab => .pure ?_
  simp only [Node.unplaced, hab, Option.map_some]

/-- An array in brackets is the same but for places if its items are. -/
theorem steadyBy_bracketedArray {bound depth : Nat}
    (hitems : SteadyBy (List.map Node.unplaced) (items limit bound depth)) :
    SteadyBy Node.unplaced (do
      let (span, items) ← Reader.spanned do
        Reader.skip ['[']
        items limit bound depth
      return .array span items) := by
  refine Agree.bind (.spanned ((steady_skip _).bind fun _ => hitems)) fun a b hab => .pure ?_
  simp only [Node.unplaced, Node.unplacedItems_eq_map, hab]

/-- A value at a depth is the same but for places if items and entries are. -/
theorem steadyBy_value_succ {bound : Nat} (depth : Nat)
    (hitems : SteadyBy (List.map Node.unplaced) (items limit bound (depth + 1)))
    (hpairs : SteadyBy (List.map unplacedPair) (pairs limit bound (depth + 1) true)) :
    SteadyBy Node.unplaced (value limit (bound + 1) depth) := by
  have harray := steadyBy_bracketedArray hitems
  have htable := steadyBy_bracedTable hpairs
  rw [value]
  refine steady_rest.bind fun cs => .ite (fun _ => ?_) fun _ => .ite (fun _ => ?_) fun _ =>
    .ite (fun _ => ?_) fun _ => .ite (fun _ => ?_) fun _ => .ite (fun _ => ?_) fun _ => ?_
  · exact (Agree.spanned steady_string).bind fun a b hab =>
      .pure (by simp only [Node.unplaced, hab])
  · exact .ite (fun _ => steady_fail.bind fun _ => harray) fun _ => harray
  · exact .ite (fun _ => steady_fail.bind fun _ => htable) fun _ => htable
  · exact (Agree.spanned (steady_skip _)).bind fun a b hab => .pure rfl
  · exact (Agree.spanned (steady_skip _)).bind fun a b hab => .pure rfl
  · refine .either ?_ (.either ?_ ?_)
    · exact (Agree.spanned steady_datetime).bind fun a b hab =>
        .pure (by simp only [Node.unplaced, hab])
    · exact (Agree.spanned steady_float).bind fun a b hab =>
        .pure (by simp only [Node.unplaced, hab])
    · exact (Agree.spanned steady_integer).bind fun a b hab =>
        .pure (by simp only [Node.unplaced, hab])

/-- Items are the same but for places if the first one and the others are. -/
theorem steadyBy_items_succ {bound depth : Nat}
    (hvalue : SteadyBy Node.unplaced (value limit bound depth))
    (hitems : SteadyBy (List.map Node.unplaced) (items limit bound depth)) :
    SteadyBy (List.map Node.unplaced) (items limit (bound + 1) depth) := by
  rw [items]
  refine (steady_commentedLines _).bind fun _ => (steady_skip? _).bind fun _ =>
    .ite (fun _ => .pure rfl) fun _ => hvalue.bind fun item item' hitem => ?_
  refine (steady_commentedLines _).bind fun _ => (steady_skip? _).bind fun _ =>
    .ite (fun _ => ?_) fun _ => ?_
  · exact hitems.bind fun more more' hmore =>
      .pure (by rw [List.map_cons, List.map_cons, hitem, hmore])
  · exact (steady_skip _).bind fun _ => .pure (by rw [List.map_cons, List.map_cons, hitem])

/-- A pair and those behind it are the same but for places if its value and the others are. -/
theorem steadyBy_pair {bound depth : Nat}
    (hvalue : SteadyBy Node.unplaced (value limit bound depth))
    (hpairs : SteadyBy (List.map unplacedPair) (pairs limit bound depth false)) :
    SteadyBy (List.map unplacedPair) (do
      let (path, key) ← keyPath limit
      Reader.skip ['=']
      blanks
      let node ← value limit bound depth
      blanks
      if ← Reader.skip? [','] then
        return (path, key, node) :: (← pairs limit bound depth false)
      Reader.skip ['}']
      return [(path, key, node)]) := by
  refine steadyBy_keyPath.bind fun p p' hp => (steady_skip _).bind fun _ => ?_
  refine steady_blanks.bind fun _ => hvalue.bind fun node node' hnode => ?_
  obtain ⟨hpath, hkey⟩ := Prod.mk.inj hp
  refine steady_blanks.bind fun _ => (steady_skip? _).bind fun _ => .ite (fun _ => ?_) fun _ => ?_
  · refine hpairs.bind fun more more' hmore => .pure ?_
    simp only [List.map_cons, unplacedPair, hpath, hkey, hnode, hmore]
  · refine (steady_skip _).bind fun _ => .pure ?_
    simp only [List.map_cons, List.map_nil, unplacedPair, hpath, hkey, hnode]

/-- Entries are the same but for places if the first one and the others are. -/
theorem steadyBy_pairs_succ {bound depth : Nat} (mayBeEmpty : Bool)
    (hvalue : SteadyBy Node.unplaced (value limit bound depth))
    (hpairs : SteadyBy (List.map unplacedPair) (pairs limit bound depth false)) :
    SteadyBy (List.map unplacedPair) (pairs limit (bound + 1) depth mayBeEmpty) := by
  have hpair := steadyBy_pair hvalue hpairs
  rw [pairs]
  refine steady_blanks.bind fun _ => .ite (fun _ => ?_) fun _ => hpair
  exact (steady_skip? _).bind fun _ => .ite (fun _ => .pure rfl) fun _ => hpair

/-- **Values** are the same but for places. -/
theorem steadyBy_values (bound : Nat) :
    (∀ depth, SteadyBy Node.unplaced (value limit bound depth)) ∧
    (∀ depth, SteadyBy (List.map Node.unplaced) (items limit bound depth)) ∧
    ∀ depth mayBeEmpty, SteadyBy (List.map unplacedPair) (pairs limit bound depth mayBeEmpty) := by
  -- values, items and entries are read by each other, each with a lesser bound
  induction bound with
  | zero => exact ⟨fun _ => .fail, fun _ => .fail, fun _ _ => .fail⟩
  | succ bound ih =>
    obtain ⟨hvalue, hitems, hpairs⟩ := ih
    exact ⟨fun depth => steadyBy_value_succ depth (hitems _) (hpairs _ _),
      fun depth => steadyBy_items_succ (hvalue depth) (hitems depth),
      fun depth mayBeEmpty => steadyBy_pairs_succ mayBeEmpty (hvalue depth) (hpairs depth false)⟩

/-- The path of a header up to its closing brackets is the same but for places. -/
theorem steadyBy_headerPath (element : Bool) : SteadyBy (Prod.map id unplacedPath) (do
    let (path, key) ← keyPath limit
    Reader.skip (if element then [']', ']'] else [']'])
    return (element, path, key)) :=
  steadyBy_keyPath.bind fun _ _ hp => (steady_skip _).bind fun _ => .pure (Prod.ext rfl hp)

/-- A header between its brackets is the same but for places. -/
theorem steadyBy_headerInside : SteadyBy (Prod.map id unplacedPath) (do
    let element ← Reader.skip? ['[', '[']
    unless element do Reader.skip ['[']
    let (path, key) ← keyPath limit
    Reader.skip (if element then [']', ']'] else [']'])
    return (element, path, key)) := by
  refine (steady_skip? _).bind fun element =>
    .ite (fun _ => steadyBy_headerPath element) fun _ => ?_
  exact (steady_skip _).bind fun _ => steadyBy_headerPath element

/-- **A header** is the same but for places. -/
theorem steadyBy_header : SteadyBy Header.unplaced (header limit) := by
  refine (Agree.spanned steadyBy_headerInside).bind fun a b hab =>
    steady_restOfLine.bind fun _ => .pure ?_
  obtain ⟨helement, hkeys⟩ := Prod.mk.inj hab
  obtain ⟨hpath, hkey⟩ := Prod.mk.inj hkeys
  simp only [Header.unplaced, hpath, hkey]
  exact congrArg (Header.mk _ _ · _) helement

/-- **A key with its value** is the same but for places. -/
theorem steadyBy_keyValue : SteadyBy unplacedPair (keyValue limit) := by
  refine steadyBy_keyPath.bind fun p p' hp => (steady_skip _).bind fun _ =>
    steady_blanks.bind fun _ => ?_
  obtain ⟨hpath, hkey⟩ := Prod.mk.inj hp
  refine steady_rest.bind fun cs => ((steadyBy_values _).1 0).bind fun node node' hnode => ?_
  refine steady_restOfLine.bind fun _ => .pure ?_
  simp only [unplacedPair, hpath, hkey, hnode]

end Values

end EngineFuzz.Toml
