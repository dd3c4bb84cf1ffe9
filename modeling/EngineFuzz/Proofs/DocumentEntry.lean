import EngineFuzz.Proofs.DocumentReading
import Mathlib.Data.List.Basic
/-!
# One more entry at the top of a document

A key that is given a value at the very top of a document changes nothing for the statements
behind it, as long as none of them mentions the key.  What has been read up to some place is
then what would have been read without that entry, and the entry is the first one of the
document.

A document mentions a key if one of its entries has it, or if the header that statements stand
under leads through it: its table is put in its place only later.  A key that is mentioned once
is mentioned to the end.

* `Assembly.withEntry` — a document half-way with one more entry at the top;
* `Assembly.mentioned` — the keys that it mentions; `Assembly.mentioned_subset_of_enter` and its
  like — no statement makes them fewer;
* `Assembly.assign_withEntry`, `Assembly.enter_withEntry` — statements that do not mention the key;
* `follows_statements` — all statements, read from wherever they stand.
-/

namespace EngineFuzz.Toml

namespace Entries

section Keys

variable {entries changed : Entries} {path : List Key} {key : Key} {node : Node} {mayHold : Bool}
  {draft : Draft} {entry : Key × Draft}

/-- The first key of a dotted path, or the key itself if there is no path. -/
abbrev firstOf (path : List Key) (key : Key) : Key := path.head?.getD key

/-- The keys of entries. -/
def texts (entries : Entries) : List String := entries.map (·.1.text)

theorem texts_append (others : Entries) :
    texts (entries ++ others) = entries.texts ++ others.texts :=
  List.map_append

theorem texts_replace (key : Key) (draft : Draft) :
    (entries.replace key draft).texts = entries.texts := by
  simp only [texts, replace, List.map_map]
  refine List.map_congr_left fun entry _ => ?_
  simp only [Function.comp_apply]
  split <;> rfl

/-- A table has the keys of its draft. -/
theorem texts_toNodes (entries : Entries) :
    (Draft.toNodes entries).map (·.1.text) = entries.texts := by
  induction entries with
  | nil => rfl
  | cons entry rest ih => exact congrArg (entry.1.text :: ·) ih

/-- A key that is found is one of the keys. -/
theorem mem_texts_of_get? (h : entries.get? key = some draft) : key.text ∈ entries.texts := by
  obtain ⟨found, hfound, -⟩ := Option.map_eq_some_iff.mp h
  have hkey : found.1.text = key.text := by simpa using List.find?_some hfound
  exact List.mem_map.mpr ⟨found, List.mem_of_find?_eq_some hfound, hkey⟩

theorem get?_cons_of_ne (h : entry.1.text ≠ key.text) :
    Entries.get? (entry :: entries) key = entries.get? key := by
  rw [get?, List.find?_cons_of_neg (by simpa using h)]
  rfl

theorem replace_cons_of_ne (h : entry.1.text ≠ key.text) (draft : Draft) :
    Entries.replace (entry :: entries) key draft = entry :: entries.replace key draft := by
  rw [replace, List.map_cons, if_neg h]
  rfl

theorem without_cons_of_ne (h : entry.1.text ≠ key.text) :
    Entries.without (entry :: entries) key = entry :: entries.without key := by
  rw [without, List.filter_cons_of_pos (by simpa using h)]
  rfl

/-- A key has been added to entries, or what it held has been replaced. -/
def Puts (entries : Entries) (key : Key) (changed : Entries) : Prop :=
  ∃ draft, changed = entries ++ [(key, draft)] ∨
    key.text ∈ entries.texts ∧ changed = entries.replace key draft

/-- A key that has been put stays, like all the others. -/
theorem Puts.texts (h : Puts entries key changed) :
    entries.texts ⊆ changed.texts ∧ key.text ∈ changed.texts := by
  obtain ⟨draft, rfl | ⟨hkey, rfl⟩⟩ := h
  · rw [texts_append]
    exact ⟨List.subset_append_left _ _, List.mem_append_right _ (List.mem_singleton_self _)⟩
  · rw [texts_replace]
    exact ⟨List.Subset.refl _, hkey⟩

/-- Giving a key a value puts the first key of its path. -/
theorem puts_of_assign (h : assign path mayHold key node entries = some changed) :
    Puts entries (firstOf path key) changed := by
  cases path with
  | nil =>
    simp only [assign] at h
    split at h
    · cases h
    · exact ⟨_, Or.inl (Option.some.inj h).symm⟩
  | cons step path =>
    simp only [assign] at h
    cases hget : entries.get? step with
    | none =>
      rw [hget] at h
      obtain ⟨inner, -, hchanged⟩ := Option.bind_eq_some_iff.mp h
      exact ⟨_, Or.inl (Option.some.inj hchanged).symm⟩
    | some draft =>
      have hmem := mem_texts_of_get? hget
      rw [hget] at h
      cases draft with
      | closed node => cases h
      | table origin span inner =>
        simp only at h
        split at h
        · cases h
        · obtain ⟨inner, -, hchanged⟩ := Option.bind_eq_some_iff.mp h
          exact ⟨_, Or.inr ⟨hmem, (Option.some.inj hchanged).symm⟩⟩
      | tables items =>
        simp only at h
        split at h
        · cases h
        · obtain ⟨inner, -, hchanged⟩ := Option.bind_eq_some_iff.mp h
          exact ⟨_, Or.inr ⟨hmem, (Option.some.inj hchanged).symm⟩⟩

variable {α : Type} {found : α} {work : Entries → Option (α × Entries)}

/-- Following a path puts its first key. -/
theorem puts_of_within {step : Key}
    (h : within work (step :: path) entries = some (found, changed)) :
    Puts entries step changed := by
  simp only [within] at h
  cases hget : entries.get? step with
  | none =>
    rw [hget] at h
    obtain ⟨inner, -, hchanged⟩ := Option.bind_eq_some_iff.mp h
    exact ⟨_, Or.inl (Prod.mk.inj (Option.some.inj hchanged)).2.symm⟩
  | some draft =>
    have hmem := mem_texts_of_get? hget
    rw [hget] at h
    cases draft with
    | closed node => cases h
    | table origin span inner =>
      obtain ⟨inner, -, hchanged⟩ := Option.bind_eq_some_iff.mp h
      exact ⟨_, Or.inr ⟨hmem, (Prod.mk.inj (Option.some.inj hchanged)).2.symm⟩⟩
    | tables items =>
      simp only at h
      split at h
      · cases h
      · obtain ⟨inner, -, hchanged⟩ := Option.bind_eq_some_iff.mp h
        exact ⟨_, Or.inr ⟨hmem, (Prod.mk.inj (Option.some.inj hchanged)).2.symm⟩⟩

/-- Putting a table puts the first key of its path. -/
theorem puts_of_place {element : Bool} {span : Span} {table : Entries} {done : Unit}
    (h : within ((if element then placeElement else placeTable) key span table) path entries =
      some (done, changed)) : Puts entries (firstOf path key) changed := by
  cases path with
  | cons step path => exact puts_of_within h
  | nil =>
    cases element with
    | false => exact ⟨_, Or.inl (Prod.mk.inj (Option.some.inj h)).2.symm⟩
    | true =>
      simp only [within, if_true, placeElement] at h
      cases hget : entries.get? key with
      | none =>
        rw [hget] at h
        exact ⟨_, Or.inl (Prod.mk.inj (Option.some.inj h)).2.symm⟩
      | some draft =>
        have hmem := mem_texts_of_get? hget
        rw [hget] at h
        cases draft with
        | closed node => cases h
        | table origin span inner => cases h
        | tables items => exact ⟨_, Or.inr ⟨hmem, (Prod.mk.inj (Option.some.inj h)).2.symm⟩⟩

/-- Preparing a table takes no key out but the first one of its path. -/
theorem texts_of_open {element : Bool} {inner : Entries}
    (h : within ((if element then openElement else openTable) key) path entries =
      some (inner, changed)) : entries.texts ⊆ (firstOf path key).text :: changed.texts := by
  cases path with
  | cons step path => exact List.Subset.trans (puts_of_within h).texts.1 (List.subset_cons_self _ _)
  | nil =>
    cases element with
    | true =>
      simp only [within, if_true, openElement] at h
      split at h
      · rw [← (Prod.mk.inj (Option.some.inj h)).2]
        exact List.subset_cons_self _ _
      · rw [← (Prod.mk.inj (Option.some.inj h)).2]
        exact List.subset_cons_self _ _
      · cases h
    | false =>
      simp only [within, Bool.false_eq_true, if_false, openTable] at h
      split at h
      · rw [← (Prod.mk.inj (Option.some.inj h)).2]
        exact List.subset_cons_self _ _
      · rw [← (Prod.mk.inj (Option.some.inj h)).2]
        intro text htext
        obtain ⟨entry, hentry, rfl⟩ := List.mem_map.mp htext
        by_cases hkey : entry.1.text = key.text
        · exact List.mem_cons.mpr (Or.inl hkey)
        · have hleft : entry ∈ entries.without key :=
            List.mem_filter.mpr ⟨hentry, by simpa using hkey⟩
          exact List.mem_cons_of_mem _ (List.mem_map_of_mem hleft)
      · cases h

/-- **Giving a key a value** behind an entry with another key. -/
theorem assign_cons (h : entry.1.text ≠ (firstOf path key).text) :
    assign path mayHold key node (entry :: entries) =
      (assign path mayHold key node entries).map (entry :: ·) := by
  cases path with
  | nil =>
    have hkey : entry.1.text ≠ key.text := h
    simp only [assign, get?_cons_of_ne hkey]
    split <;> rfl
  | cons step path =>
    have hstep : entry.1.text ≠ step.text := h
    simp only [assign, get?_cons_of_ne hstep]
    cases entries.get? step with
    | none => cases assign path true key node [] <;> rfl
    | some draft =>
      cases draft with
      | closed node => rfl
      | table origin span inner =>
        simp only [replace_cons_of_ne hstep]
        split
        · rfl
        · cases assign path (origin = .dotted) key node inner <;> rfl
      | tables items =>
        simp only [replace_cons_of_ne hstep]
        cases items.getLast? with
        | none => rfl
        | some last =>
          obtain ⟨span, inner⟩ := last
          dsimp only
          cases assign path false key node inner <;> rfl

/-- **Following a path** behind an entry with another key, if the work at its end is done there. -/
theorem within_cons (hwork : path = [] → work (entry :: entries) =
      (work entries).map fun found => (found.1, entry :: found.2))
    (hpath : ∀ step, path.head? = some step → entry.1.text ≠ step.text) :
    within work path (entry :: entries) =
      (within work path entries).map fun found => (found.1, entry :: found.2) := by
  cases path with
  | nil => exact hwork rfl
  | cons step path =>
    have hstep : entry.1.text ≠ step.text := hpath step rfl
    simp only [within, get?_cons_of_ne hstep]
    cases entries.get? step with
    | none => cases within work path [] <;> rfl
    | some draft =>
      cases draft with
      | closed node => rfl
      | table origin span inner =>
        simp only [replace_cons_of_ne hstep]
        cases within work path inner <;> rfl
      | tables items =>
        simp only [replace_cons_of_ne hstep]
        cases items.getLast? with
        | none => rfl
        | some last =>
          obtain ⟨span, inner⟩ := last
          dsimp only
          cases within work path inner <;> rfl

/-- **Preparing a table** behind an entry with another key. -/
theorem open_cons {element : Bool} (h : entry.1.text ≠ (firstOf path key).text) :
    within ((if element then openElement else openTable) key) path (entry :: entries) =
      (within ((if element then openElement else openTable) key) path entries).map
        fun found => (found.1, entry :: found.2) := by
  refine within_cons (fun hpath => ?_) fun step hstep => by simpa [firstOf, hstep] using h
  subst hpath
  have hkey : entry.1.text ≠ key.text := h
  cases element with
  | true =>
    simp only [if_true, openElement, get?_cons_of_ne hkey]
    split <;> rfl
  | false =>
    simp only [Bool.false_eq_true, if_false, openTable, get?_cons_of_ne hkey,
      without_cons_of_ne hkey]
    split <;> rfl

/-- **Putting a table in its place** behind an entry with another key. -/
theorem place_cons (element : Bool) (span : Span) (table entries : Entries)
    (h : entry.1.text ≠ (firstOf path key).text) :
    within ((if element then placeElement else placeTable) key span table) path (entry :: entries) =
      (within ((if element then placeElement else placeTable) key span table) path entries).map
        fun found => (found.1, entry :: found.2) := by
  refine within_cons (fun hpath => ?_) fun step hstep => by simpa [firstOf, hstep] using h
  subst hpath
  have hkey : entry.1.text ≠ key.text := h
  cases element with
  | true =>
    simp only [if_true, placeElement, get?_cons_of_ne hkey, replace_cons_of_ne hkey]
    split <;> rfl
  | false => rfl

end Keys

end Entries

/-- The first key that a header leads through. -/
abbrev Header.first (header : Header) : Key := Entries.firstOf header.path header.key

namespace Assembly

section Mentioned

variable {a b : Assembly} {path : List Key} {key : Key} {node : Node} {header : Header}
  {entry : Key × Draft} {entries : Entries} {span : Span}

/-- The keys that a document half-way mentions at the top. -/
def mentioned (a : Assembly) : List String :=
  match a.header with
  | none => a.entries.texts
  | some header => header.first.text :: a.finished.texts

/-- A document half-way with one more entry at the top. -/
def withEntry (a : Assembly) (entry : Key × Draft) : Assembly :=
  match a.header with
  | none => { a with entries := entry :: a.entries }
  | some _ => { a with finished := entry :: a.finished }

/-- A table that is put in its place loses no key, and the first key of its header is there. -/
theorem mentioned_subset_of_finish (h : a.finish = some (span, entries)) :
    a.mentioned ⊆ entries.texts := by
  obtain ⟨finished, finishedSpan, header, ownSpan, own⟩ := a
  cases header with
  | none =>
    obtain ⟨-, rfl⟩ := Prod.mk.inj (Option.some.inj h)
    exact List.Subset.refl _
  | some header =>
    obtain ⟨⟨done, changed⟩, hplace, hchanged⟩ := Option.bind_eq_some_iff.mp h
    obtain ⟨-, rfl⟩ := Prod.mk.inj (Option.some.inj hchanged)
    have hputs := (Entries.puts_of_place hplace).texts
    exact List.cons_subset.mpr ⟨hputs.2, hputs.1⟩

/-- A key with a value loses no key. -/
theorem mentioned_subset_of_assign (h : a.assign path key node = some b) :
    a.mentioned ⊆ b.mentioned := by
  obtain ⟨finished, finishedSpan, header, ownSpan, own⟩ := a
  obtain ⟨changed, hassign, hchanged⟩ := Option.bind_eq_some_iff.mp h
  obtain rfl := Option.some.inj hchanged
  cases header with
  | none => exact (Entries.puts_of_assign hassign).texts.1
  | some header => exact List.Subset.refl _

/-- A key with a value at the top is mentioned. -/
theorem mem_mentioned_of_assign (h : a.assign path key node = some b) (hheader : a.header = none) :
    (Entries.firstOf path key).text ∈ b.mentioned := by
  obtain ⟨changed, hassign, hchanged⟩ := Option.bind_eq_some_iff.mp h
  obtain rfl := Option.some.inj hchanged
  simp only [mentioned, hheader]
  exact (Entries.puts_of_assign hassign).texts.2

/-- A header loses no key. -/
theorem mentioned_subset_of_enter (h : a.enter header = some b) :
    a.mentioned ⊆ b.mentioned := by
  obtain ⟨⟨span, entries⟩, hfinish, hopen⟩ := Option.bind_eq_some_iff.mp h
  obtain ⟨⟨inner, changed⟩, hprepare, hchanged⟩ := Option.bind_eq_some_iff.mp hopen
  obtain rfl := Option.some.inj hchanged
  exact List.Subset.trans (mentioned_subset_of_finish hfinish) (Entries.texts_of_open hprepare)

/-- A header is mentioned. -/
theorem mem_mentioned_of_enter (h : a.enter header = some b) :
    header.first.text ∈ b.mentioned := by
  obtain ⟨⟨span, entries⟩, hfinish, hopen⟩ := Option.bind_eq_some_iff.mp h
  obtain ⟨⟨inner, changed⟩, hprepare, hchanged⟩ := Option.bind_eq_some_iff.mp hopen
  obtain rfl := Option.some.inj hchanged
  exact List.mem_cons_self

/-- Putting a table in its place, behind an entry with another key. -/
theorem finish_withEntry (h : entry.1.text ∉ a.mentioned) :
    (a.withEntry entry).finish = a.finish.map fun found => (found.1, entry :: found.2) := by
  obtain ⟨finished, finishedSpan, header, ownSpan, own⟩ := a
  cases header with
  | none => rfl
  | some header =>
    obtain ⟨path, key, element, headerSpan⟩ := header
    have hfirst : entry.1.text ≠ (Entries.firstOf path key).text := List.ne_of_not_mem_cons h
    have hplace := Entries.place_cons element ownSpan own finished hfirst
    simp only [finish, withEntry, hplace]
    cases Entries.within _ path finished <;> rfl

/-- **A key with a value**, behind an entry with another key. -/
theorem assign_withEntry (h : a.assign path key node = some b) (hb : entry.1.text ∉ b.mentioned) :
    (a.withEntry entry).assign path key node = some (b.withEntry entry) := by
  obtain ⟨finished, finishedSpan, header, ownSpan, own⟩ := a
  obtain ⟨changed, hassign, hchanged⟩ := Option.bind_eq_some_iff.mp h
  obtain rfl := Option.some.inj hchanged
  cases header with
  | none =>
    have hfirst : entry.1.text ≠ (Entries.firstOf path key).text :=
      fun heq => hb (heq ▸ mem_mentioned_of_assign h rfl)
    have hbehind : Entries.assign path true key node (entry :: own) = some (entry :: changed) := by
      rw [Entries.assign_cons hfirst, show own.assign path true key node =
        some changed from hassign]
      rfl
    exact Option.bind_eq_some_iff.mpr ⟨_, hbehind, rfl⟩
  | some header => exact Option.bind_eq_some_iff.mpr ⟨changed, hassign, rfl⟩

/-- **A header**, behind an entry with another key. -/
theorem enter_withEntry (h : a.enter header = some b) (hb : entry.1.text ∉ b.mentioned) :
    (a.withEntry entry).enter header = some (b.withEntry entry) := by
  have hfirst : entry.1.text ≠ header.first.text := fun heq => hb (heq ▸ mem_mentioned_of_enter h)
  have ha : entry.1.text ∉ a.mentioned := fun hmem => hb (mentioned_subset_of_enter h hmem)
  obtain ⟨⟨span, entries⟩, hfinish, hopen⟩ := Option.bind_eq_some_iff.mp h
  obtain ⟨⟨inner, changed⟩, hprepare, hchanged⟩ := Option.bind_eq_some_iff.mp hopen
  obtain rfl := Option.some.inj hchanged
  have hfinished : (a.withEntry entry).finish = some (span, entry :: entries) := by
    rw [finish_withEntry ha, hfinish]
    rfl
  have hprepared :
      Entries.within ((if header.element then Entries.openElement else Entries.openTable)
      header.key) header.path (entry :: entries) = some (inner, entry :: changed) := by
    rw [Entries.open_cons hfirst, hprepare]
    rfl
  exact Option.bind_eq_some_iff.mpr ⟨_, hfinished, Option.bind_eq_some_iff.mpr ⟨_, hprepared, rfl⟩⟩

/-- **A document** with one more entry at the top. -/
theorem toNode_withEntry (h : entry.1.text ∉ a.mentioned) :
    (a.withEntry entry).toNode = a.finish.map fun found =>
      .table (some found.1) ((entry.1, entry.2.toNode) :: Draft.toNodes found.2) := by
  rw [toNode, finish_withEntry h]
  cases a.finish <;> rfl

end Mentioned

section Behind

variable {a a' b : Assembly} {entry : Key × Draft}

@[simp] theorem mentioned_unplaced (a : Assembly) : a.unplaced.mentioned = a.mentioned := by
  have htexts : ∀ entries : Entries, entries.unplaced.texts = entries.texts := fun entries => by
    rw [Entries.texts, Entries.unplaced_eq_map, List.map_map]
    rfl
  obtain ⟨finished, finishedSpan, header, span, entries⟩ := a
  cases header with
  | none => exact htexts entries
  | some header =>
    obtain ⟨path, key, element, headerSpan⟩ := header
    have hfirst : (Entries.firstOf (path.map Key.unplaced) key.unplaced).text =
        (Entries.firstOf path key).text := by
      cases path <;> rfl
    exact congrArg₂ List.cons hfirst (htexts finished)

/-- Two documents half-way that are the same but for places and for an entry at the top of the
second. -/
def Behind (entry : Key × Draft) (a a' : Assembly) : Prop :=
  a'.unplaced = a.unplaced.withEntry entry

/-- A key with a value that is not the entry's. -/
theorem Behind.assign {path path' : List Key} {key key' : Key} {node node' : Node}
    (h : Behind entry a a') (hpath : path.map Key.unplaced = path'.map Key.unplaced)
    (hkey : key.unplaced = key'.unplaced) (hnode : node.unplaced = node'.unplaced)
    (hassign : a.assign path key node = some b) (hb : entry.1.text ∉ b.mentioned) :
    ∃ b', a'.assign path' key' node' = some b' ∧ Behind entry b b' := by
  have hunplaced := a.unplaced_assign path key node
  rw [hassign, hpath, hkey, hnode] at hunplaced
  have hbehind := assign_withEntry hunplaced.symm (by rwa [mentioned_unplaced])
  rw [← h, ← unplaced_assign] at hbehind
  exact Option.map_eq_some_iff.mp hbehind

/-- A header that does not lead through the entry. -/
theorem Behind.enter {header header' : Header} (h : Behind entry a a')
    (hheader : header.unplaced = header'.unplaced) (henter : a.enter header = some b)
    (hb : entry.1.text ∉ b.mentioned) :
    ∃ b', a'.enter header' = some b' ∧ Behind entry b b' := by
  have hunplaced := a.unplaced_enter header
  rw [henter, hheader] at hunplaced
  have hbehind := enter_withEntry hunplaced.symm (by rwa [mentioned_unplaced])
  rw [← h, ← unplaced_enter] at hbehind
  exact Option.map_eq_some_iff.mp hbehind

end Behind

end Assembly

namespace Reader

variable {α β γ δ : Type} {P : γ → Prop} {S : γ → δ → Prop}

/-- A value that a reader yields is the first reader's or is read after it. -/
theorem exists_of_bind_ok {first : Reader α} {next : α → Reader γ} {cursor left : Cursor} {c : γ}
    (h : (first >>= next) cursor = .ok (c, left)) :
    ∃ a mid, first cursor = .ok (a, mid) ∧ next a mid = .ok (c, left) := by
  cases hfirst : first cursor with
  | error place => rw [bind_of_error hfirst] at h; cases h
  | ok found =>
    rw [bind_of_ok hfirst] at h
    exact ⟨found.1, found.2, rfl, h⟩

/-- A reader that yields nothing but values with a property. -/
def Yields (P : γ → Prop) (reader : Reader γ) : Prop :=
  ∀ cursor c left, reader cursor = .ok (c, left) → P c

/-- What is read last has the property. -/
theorem Yields.bind {first : Reader α} {next : α → Reader γ} (h : ∀ a, Yields P (next a)) :
    Yields P (first >>= next) := by
  intro cursor c left hread
  obtain ⟨a, mid, -, hnext⟩ := exists_of_bind_ok hread
  exact h a mid c left hnext

theorem Yields.pure {c : γ} (h : P c) : Yields P (Pure.pure c) := fun cursor d left hread => by
  obtain ⟨rfl, -⟩ := Prod.mk.inj (Except.ok.inj hread)
  exact h

theorem Yields.fail : Yields P (Reader.fail : Reader γ) := fun _ _ _ hread => by cases hread

/-- Where the first reader yields a value with a property, the second one, before the same
characters, yields a related value and leaves the same. -/
def Follows (P : γ → Prop) (S : γ → δ → Prop) (first : Reader γ) (second : Reader δ) : Prop :=
  ∀ total total' cs c left, first ⟨total, cs⟩ = .ok (c, left) → P c →
    ∃ d, second ⟨total', cs⟩ = .ok (d, ⟨total', left.rest⟩) ∧ S c d

/-- After readers that agree. -/
theorem Agree.follows {R : α → β → Prop} {first : Reader α} {second : Reader β}
    {next : α → Reader γ} {next' : β → Reader δ} (h : Agree R first second)
    (hnext : ∀ a b, R a b → Follows P S (next a) (next' b)) :
    Follows P S (first >>= next) (second >>= next') := by
  intro total total' cs c left hread hc
  obtain ⟨a, mid, hfirst, hthen⟩ := exists_of_bind_ok hread
  rcases h total total' cs with ⟨place, place', herror, -⟩ | ⟨a', b, rest, hok, hsecond, hab⟩
  · rw [herror] at hfirst
    cases hfirst
  · obtain ⟨rfl, rfl⟩ := Prod.mk.inj (Except.ok.inj (hok.symm.trans hfirst))
    rw [bind_of_ok hsecond]
    exact hnext a' b hab total total' rest c left hthen hc

/-- After a steady reader. -/
theorem Steady.follows {reader : Reader α} {next : α → Reader γ} {next' : α → Reader δ}
    (h : Steady reader) (hnext : ∀ a, Follows P S (next a) (next' a)) :
    Follows P S (reader >>= next) (reader >>= next') :=
  Agree.follows h fun a _ heq => heq ▸ hnext a

theorem Follows.pure {c : γ} {d : δ} (h : S c d) : Follows P S (Pure.pure c) (Pure.pure d) :=
  fun total total' cs c' left hread _ => by
    obtain ⟨rfl, rfl⟩ := Prod.mk.inj (Except.ok.inj hread)
    exact ⟨d, rfl, h⟩

theorem Follows.fail {second : Reader δ} : Follows P S (Reader.fail : Reader γ) second :=
  fun _ _ _ _ _ hread _ => by cases hread

end Reader

section Statements

open Reader

variable {limit : Nat}

/-- No statement makes the keys fewer that a document mentions. -/
theorem yields_statements (bound : Nat) (a : Assembly) :
    Yields (fun b => a.mentioned ⊆ b.mentioned) (statements limit bound a) := by
  induction bound generalizing a with
  | zero => exact .fail
  | succ bound ih =>
    have hthen : ∀ changed : Option Assembly, (∀ b, changed = some b → a.mentioned ⊆ b.mentioned) →
        Yields (fun b => a.mentioned ⊆ b.mentioned) (do
          let assembly ← orFail changed
          statements limit bound assembly) := by
      intro changed hchanged
      cases changed with
      | none => exact fun _ _ _ hread => by cases hread
      | some b =>
        exact fun cursor c left hread =>
          List.Subset.trans (hchanged b rfl) (ih b cursor c left hread)
    rw [statements]
    refine .bind fun _ => .bind fun cs => ?_
    split
    · exact .pure (List.Subset.refl _)
    · exact .bind fun _ => .bind fun _ => ih a
    · exact .bind fun _ => ih a
    · exact .bind fun _ => ih a
    · exact .bind fun header => hthen _ fun _ => Assembly.mentioned_subset_of_enter
    · exact .bind fun pair => hthen _ fun _ => Assembly.mentioned_subset_of_assign

/-- **Statements behind an entry** that none of them mentions: what comes of them is what came
of them without it, and the entry.  More characters may be allowed for than there are. -/
theorem follows_statements {entry : Key × Draft} (more bound : Nat) {a a' : Assembly}
    (h : Assembly.Behind entry a a') :
    Follows (fun b => entry.1.text ∉ b.mentioned) (Assembly.Behind entry) (statements limit bound a)
      (statements limit (bound + more) a') := by
  induction bound generalizing a a' with
  | zero => exact .fail
  | succ bound ih =>
    have hthen : ∀ changed changed' : Option Assembly,
        (∀ b, changed = some b → entry.1.text ∉ b.mentioned →
          ∃ b', changed' = some b' ∧ Assembly.Behind entry b b') →
        Follows (fun b => entry.1.text ∉ b.mentioned) (Assembly.Behind entry)
          (do
            let assembly ← orFail changed
            statements limit bound assembly)
          (do
            let assembly ← orFail changed'
            statements limit (bound + more) assembly) := by
      intro changed changed' hchanged
      cases changed with
      | none => exact fun _ _ _ _ _ hread => by cases hread
      | some b =>
        intro total total' cs c left hread hc
        -- What is mentioned now is mentioned in the end.
        have hb : entry.1.text ∉ b.mentioned := fun hmem =>
          hc (yields_statements bound b _ c left hread hmem)
        obtain ⟨b', rfl, hbehind⟩ := hchanged b rfl hb
        exact ih hbehind total total' cs c left hread hc
    rw [Nat.succ_add, statements, statements]
    refine steady_blanks.follows fun _ => steady_rest.follows fun cs => ?_
    split
    · exact .pure h
    · exact steady_comment?.follows fun _ => steady_lineEnd.follows fun _ => ih h
    · exact steady_lineEnd.follows fun _ => ih h
    · exact steady_lineEnd.follows fun _ => ih h
    · exact steadyBy_header.follows fun header header' hheader => hthen _ _ fun b => h.enter hheader
    · refine steadyBy_keyValue.follows fun pair pair' hpair => hthen _ _ fun b => ?_
      obtain ⟨hpath, hrest⟩ := Prod.mk.inj hpair
      obtain ⟨hkey, hnode⟩ := Prod.mk.inj hrest
      exact h.assign hpath hkey hnode

end Statements

end EngineFuzz.Toml
