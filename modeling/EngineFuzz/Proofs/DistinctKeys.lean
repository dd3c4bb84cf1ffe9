import EngineFuzz.Proofs.DocumentEntry
import Mathlib.Data.List.Nodup
/-!
# No table of a document holds a key twice

Every statement of a document that is not refused keeps the keys of each table distinct.  A
header takes the table that a path has passed through out of its place and puts the finished one
there later, so what has to be remembered in between is that its key is vacant where its path
ends.

* `Node.Distinct`, `Entries.Distinct` — no table holds a key twice;
* `Entries.Distinct.assign` — a key that is given a value;
* `Entries.AtEnd`, `Entries.Distinct.within` — what holds where a header's path ends;
* `Assembly.Distinct` — a document half-way; `Assembly.Distinct.enter` and its like — statements
  keep it;
* `distinct_of_read` — documents that have been read.
-/

namespace EngineFuzz.Toml

/-- No table in a value holds a key twice. -/
inductive Node.Distinct : Node → Prop
  | string (span : Span) (text : String) : Node.Distinct (.string span text)
  | integer (span : Span) (value : Int64) : Node.Distinct (.integer span value)
  | float (span : Span) (value : Binary64) : Node.Distinct (.float span value)
  | boolean (span : Span) (value : Bool) : Node.Distinct (.boolean span value)
  | datetime (span : Span) (text : String) : Node.Distinct (.datetime span text)
  | array {items : List Node} (span : Span) (inside : ∀ item ∈ items, Node.Distinct item) :
      Node.Distinct (.array span items)
  | table {entries : List (Key × Node)} (span : Option Span) (keys : (entries.map (·.1.text)).Nodup)
      (inside : ∀ entry ∈ entries, Node.Distinct entry.2) : Node.Distinct (.table span entries)

/-- No table in a draft holds a key twice. -/
inductive Draft.Distinct : Draft → Prop
  | closed {node : Node} (inside : node.Distinct) : Draft.Distinct (.closed node)
  | table {entries : Entries} (origin : Origin) (span : Option Span) (keys : entries.texts.Nodup)
      (inside : ∀ entry ∈ entries, Draft.Distinct entry.2) :
      Draft.Distinct (.table origin span entries)
  | tables {items : List (Span × Entries)} (keys : ∀ item ∈ items, item.2.texts.Nodup)
      (inside : ∀ item ∈ items, ∀ entry ∈ item.2, Draft.Distinct entry.2) :
      Draft.Distinct (.tables items)

/-- No table in draft entries, nor they themselves, hold a key twice. -/
structure Entries.Distinct (entries : Entries) : Prop where
  keys : entries.texts.Nodup
  inside : ∀ entry ∈ entries, entry.2.Distinct

section Drafts

theorem Draft.toNodes_eq_map (entries : Entries) :
    Draft.toNodes entries = entries.map fun entry => (entry.1, entry.2.toNode) := by
  induction entries with
  | nil => rfl
  | cons entry rest ih => rw [Draft.toNodes, ih, List.map_cons]

theorem Draft.toTables_eq_map (items : List (Span × Entries)) :
    Draft.toTables items = items.map fun item => .table (some item.1) (Draft.toNodes item.2) := by
  induction items with
  | nil => rfl
  | cons item rest ih => rw [Draft.toTables, ih, List.map_cons]

theorem Draft.distinct_table_iff {origin : Origin} {span : Option Span} {entries : Entries} :
    (Draft.table origin span entries).Distinct ↔ entries.Distinct := by
  constructor
  · rintro (_ | ⟨_, _, hkeys, hinside⟩)
    exact ⟨hkeys, hinside⟩
  · exact fun h => .table _ _ h.keys h.inside

theorem Draft.distinct_tables_iff {items : List (Span × Entries)} :
    (Draft.tables items).Distinct ↔ ∀ item ∈ items, item.2.Distinct := by
  constructor
  · rintro (_ | _ | ⟨hkeys, hinside⟩) item hitem
    exact ⟨hkeys item hitem, hinside item hitem⟩
  · exact fun h => .tables (fun item hitem => (h item hitem).keys) fun item hitem =>
      (h item hitem).inside

/-- The table of entries has a key no more than once if they do. -/
theorem Node.distinct_table_toNodes {entries : Entries} (hkeys : entries.texts.Nodup)
    (hinside : ∀ entry ∈ entries, entry.2.toNode.Distinct) (span : Option Span) :
    (Node.table span (Draft.toNodes entries)).Distinct := by
  refine .table span (by rwa [Entries.texts_toNodes]) ?_
  rw [Draft.toNodes_eq_map]
  exact List.forall_mem_map.mpr hinside

/-- A draft has as few repetitions as what it stands for. -/
theorem Draft.Distinct.toNode {draft : Draft} (h : draft.Distinct) : draft.toNode.Distinct := by
  induction h with
  | closed hinside => exact hinside
  | table origin span hkeys _ ih => exact Node.distinct_table_toNodes hkeys ih span
  | tables hkeys _ ih =>
    rw [Draft.toNode]
    refine .array _ ?_
    rw [Draft.toTables_eq_map]
    exact List.forall_mem_map.mpr fun item hitem =>
      Node.distinct_table_toNodes (hkeys item hitem) (ih item hitem) _

/-- The table of entries without repetitions. -/
theorem Entries.Distinct.toNode {entries : Entries} (h : entries.Distinct) (span : Option Span) :
    (Node.table span (Draft.toNodes entries)).Distinct :=
  Node.distinct_table_toNodes h.keys (fun entry hentry => (h.inside entry hentry).toNode) span

end Drafts

namespace Entries

section Keys

variable {entries changed : Entries} {key step : Key} {draft : Draft}

theorem not_mem_texts_of_get? (h : entries.get? key = none) : key.text ∉ entries.texts := by
  simpa [get?, texts] using h

theorem get?_append_of_none (h : entries.get? key = none) (draft : Draft) :
    Entries.get? (entries ++ [(key, draft)]) key = some draft := by
  have hfind : entries.find? (·.1.text = key.text) = none := Option.map_eq_none_iff.mp h
  rw [get?, List.find?_append, hfind]
  simp

theorem get?_replace_self (h : key.text ∈ entries.texts) (draft : Draft) :
    (entries.replace key draft).get? key = some draft := by
  induction entries with
  | nil => cases h
  | cons entry rest ih =>
    by_cases hkey : entry.1.text = key.text
    · simp [replace, get?, hkey]
    · have hrest : key.text ∈ texts rest := (List.mem_cons.mp h).resolve_left (Ne.symm hkey)
      rw [replace_cons_of_ne hkey, get?_cons_of_ne hkey, ih hrest]

/-- A new key comes in addition to the others. -/
theorem Distinct.append (h : entries.Distinct) (hkey : key.text ∉ entries.texts)
    (hdraft : draft.Distinct) : Entries.Distinct (entries ++ [(key, draft)]) := by
  refine ⟨?_, ?_⟩
  · rw [texts_append]
    exact h.keys.append (List.nodup_singleton _) (List.disjoint_singleton.mpr hkey)
  · exact List.forall_mem_append.mpr ⟨h.inside, List.forall_mem_singleton.mpr hdraft⟩

/-- What a key holds is replaced. -/
theorem Distinct.replace (h : entries.Distinct) (key : Key) (hdraft : draft.Distinct) :
    (entries.replace key draft).Distinct := by
  refine ⟨by rw [texts_replace]; exact h.keys, List.forall_mem_map.mpr fun entry hentry => ?_⟩
  split
  · exact hdraft
  · exact h.inside entry hentry

/-- A key is taken out. -/
theorem Distinct.without (h : entries.Distinct) (key : Key) : (entries.without key).Distinct :=
  ⟨h.keys.sublist (List.filter_sublist.map _),
    fun entry hentry => h.inside entry (List.mem_of_mem_filter hentry)⟩

theorem not_mem_texts_without (entries : Entries) (key : Key) :
    key.text ∉ (entries.without key).texts := by
  intro hmem
  obtain ⟨entry, hentry, hkey⟩ := List.mem_map.mp hmem
  simpa [hkey] using (List.mem_filter.mp hentry).2

/-- What a key holds has as few repetitions as everything. -/
theorem Distinct.of_get? (h : entries.Distinct) (hget : entries.get? key = some draft) :
    draft.Distinct := by
  obtain ⟨entry, hentry, rfl⟩ := Option.map_eq_some_iff.mp hget
  exact h.inside entry (List.mem_of_find?_eq_some hentry)

theorem distinct_nil : Entries.Distinct [] := ⟨List.nodup_nil, fun _ hentry => by cases hentry⟩

/-- The last table of an array is given other entries. -/
theorem distinct_tables_set_last {items : List (Span × Entries)} {inner : Entries}
    (h : (Draft.tables items).Distinct) (hinner : inner.Distinct) (span : Span) :
    (Draft.tables (items.dropLast ++ [(span, inner)])).Distinct := by
  have hitems := Draft.distinct_tables_iff.mp h
  refine Draft.distinct_tables_iff.mpr (List.forall_mem_append.mpr ⟨fun item hitem => ?_, ?_⟩)
  · exact hitems item (List.dropLast_subset items hitem)
  · exact List.forall_mem_singleton.mpr hinner

/-- The last table of an array has as few repetitions as all of them. -/
theorem distinct_of_getLast? {items : List (Span × Entries)} {span : Span} {inner : Entries}
    (h : (Draft.tables items).Distinct) (hlast : items.getLast? = some (span, inner)) :
    inner.Distinct :=
  Draft.distinct_tables_iff.mp h _ (List.mem_of_getLast? hlast)

/-- **Giving a key a value** repeats no key. -/
theorem Distinct.assign {path : List Key} {mayHold : Bool} {node : Node} (h : entries.Distinct)
    (hnode : node.Distinct) (hassign : assign path mayHold key node entries = some changed) :
    changed.Distinct := by
  induction path generalizing mayHold entries changed with
  | nil =>
    simp only [Entries.assign] at hassign
    split at hassign
    · cases hassign
    · rename_i hfree
      obtain rfl := Option.some.inj hassign
      have hget : entries.get? key = none := by
        rw [Bool.or_eq_true, not_or, Option.not_isSome_iff_eq_none] at hfree
        exact hfree.2
      exact h.append (not_mem_texts_of_get? hget) (.closed hnode)
  | cons step path ih =>
    simp only [Entries.assign] at hassign
    cases hget : entries.get? step with
    | none =>
      rw [hget] at hassign
      obtain ⟨inner, hinner, hchanged⟩ := Option.bind_eq_some_iff.mp hassign
      obtain rfl := Option.some.inj hchanged
      exact h.append (not_mem_texts_of_get? hget)
        (Draft.distinct_table_iff.mpr (ih distinct_nil hinner))
    | some draft =>
      have hdraft := h.of_get? hget
      rw [hget] at hassign
      cases draft with
      | closed node => cases hassign
      | table origin span inner =>
        simp only at hassign
        split at hassign
        · cases hassign
        · obtain ⟨grown, hgrown, hchanged⟩ := Option.bind_eq_some_iff.mp hassign
          obtain rfl := Option.some.inj hchanged
          have hinner := ih (Draft.distinct_table_iff.mp hdraft) hgrown
          exact h.replace step (Draft.distinct_table_iff.mpr hinner)
      | tables items =>
        simp only at hassign
        split at hassign
        · cases hassign
        · rename_i span inner hlast
          obtain ⟨grown, hgrown, hchanged⟩ := Option.bind_eq_some_iff.mp hassign
          obtain rfl := Option.some.inj hchanged
          have hinner := ih (distinct_of_getLast? hdraft hlast) hgrown
          exact h.replace step (distinct_tables_set_last hdraft hinner span)

end Keys

section Paths

variable {α : Type} {P Q : Entries → Prop} {found : α} {work : Entries → Option (α × Entries)}
  {path : List Key} {key : Key} {entries changed inner table : Entries}

/-- Entries to which a header's path leads have a property. -/
def AtEnd (P : Entries → Prop) : (path : List Key) → Entries → Prop
  | [], entries => P entries
  | step :: path, entries =>
    match entries.get? step with
    | none => AtEnd P path []
    | some (.table _ _ inner) => AtEnd P path inner
    | some (.tables items) =>
      match items.getLast? with
      | none => True
      | some (_, inner) => AtEnd P path inner
    | some (.closed _) => True

theorem atEnd_of_forall (h : ∀ entries, P entries) (path : List Key) (entries : Entries) :
    AtEnd P path entries := by
  induction path generalizing entries with
  | nil => exact h entries
  | cons step path ih =>
    rw [AtEnd]
    split
    · exact ih _
    · exact ih _
    · split
      · trivial
      · exact ih _
    · trivial

theorem atEnd_append {step : Key} (hget : entries.get? step = none) (origin : Origin)
    (span : Option Span) (h : AtEnd P path inner) :
    AtEnd P (step :: path) (entries ++ [(step, .table origin span inner)]) := by
  rwa [AtEnd, get?_append_of_none hget]

theorem atEnd_replace_table {step : Key} {origin : Origin} {span : Option Span}
    (hstep : step.text ∈ entries.texts) (h : AtEnd P path inner) :
    AtEnd P (step :: path) (entries.replace step (.table origin span inner)) := by
  rwa [AtEnd, get?_replace_self hstep]

theorem atEnd_replace_tables {step : Key} {items : List (Span × Entries)} {span : Span}
    (hstep : step.text ∈ entries.texts) (h : AtEnd P path inner) :
    AtEnd P (step :: path)
      (entries.replace step (.tables (items.dropLast ++ [(span, inner)]))) := by
  rw [AtEnd, get?_replace_self hstep]
  simpa only [List.getLast?_concat] using h

/-- **Following a path** repeats no key if the work at its end does not. -/
theorem Distinct.within {F : α → Prop}
    (hwork : ∀ entries found changed, entries.Distinct → P entries →
      work entries = some (found, changed) → F found ∧ changed.Distinct ∧ Q changed)
    (h : entries.Distinct) (hend : AtEnd P path entries)
    (hwithin : within work path entries = some (found, changed)) :
    F found ∧ changed.Distinct ∧ AtEnd Q path changed := by
  induction path generalizing entries changed with
  | nil => exact hwork entries found changed h hend hwithin
  | cons step path ih =>
    simp only [Entries.within] at hwithin
    rw [AtEnd] at hend
    cases hget : entries.get? step with
    | none =>
      rw [hget] at hwithin hend
      obtain ⟨⟨done, inner⟩, hinner, hchanged⟩ := Option.bind_eq_some_iff.mp hwithin
      obtain ⟨rfl, rfl⟩ := Prod.mk.inj (Option.some.inj hchanged)
      obtain ⟨hdone, hdistinct, hat⟩ := ih distinct_nil hend hinner
      exact ⟨hdone, h.append (not_mem_texts_of_get? hget) (Draft.distinct_table_iff.mpr hdistinct),
        atEnd_append hget _ _ hat⟩
    | some draft =>
      have hdraft := h.of_get? hget
      have hstep := mem_texts_of_get? hget
      rw [hget] at hwithin hend
      cases draft with
      | closed node => cases hwithin
      | table origin span inner =>
        obtain ⟨⟨done, grown⟩, hgrown, hchanged⟩ := Option.bind_eq_some_iff.mp hwithin
        obtain ⟨rfl, rfl⟩ := Prod.mk.inj (Option.some.inj hchanged)
        obtain ⟨hdone, hdistinct, hat⟩ := ih (Draft.distinct_table_iff.mp hdraft) hend hgrown
        exact ⟨hdone, h.replace step (Draft.distinct_table_iff.mpr hdistinct),
          atEnd_replace_table hstep hat⟩
      | tables items =>
        simp only at hwithin hend
        cases hlast : items.getLast? with
        | none =>
          rw [hlast] at hwithin
          cases hwithin
        | some last =>
          obtain ⟨span, inner⟩ := last
          rw [hlast] at hwithin hend
          obtain ⟨⟨done, grown⟩, hgrown, hchanged⟩ := Option.bind_eq_some_iff.mp hwithin
          obtain ⟨rfl, rfl⟩ := Prod.mk.inj (Option.some.inj hchanged)
          obtain ⟨hdone, hdistinct, hat⟩ := ih (distinct_of_getLast? hdraft hlast) hend hgrown
          exact ⟨hdone, h.replace step (distinct_tables_set_last hdraft hdistinct span),
            atEnd_replace_tables hstep hat⟩

/-- Following a path repeats no key if the work at its end never does. -/
theorem Distinct.within_of_forall {F : α → Prop}
    (hwork : ∀ entries found changed, entries.Distinct → work entries = some (found, changed) →
      F found ∧ changed.Distinct)
    (h : entries.Distinct) (hwithin : Entries.within work path entries = some (found, changed)) :
    F found ∧ changed.Distinct := by
  have hend : AtEnd (fun _ => True) path entries := atEnd_of_forall (fun _ => trivial) path entries
  have hkept : F found ∧ changed.Distinct ∧ AtEnd (fun _ => True) path changed := by
    refine h.within (fun entries found changed hentries _ hdone => ?_) hend hwithin
    obtain ⟨hfound, hchanged⟩ := hwork entries found changed hentries hdone
    exact ⟨hfound, hchanged, trivial⟩
  exact ⟨hkept.1, hkept.2.1⟩

/-- A key is not there. -/
def Vacant (key : Key) (entries : Entries) : Prop := key.text ∉ entries.texts

/-- **Preparing a table** leaves its key vacant. -/
theorem Distinct.openTable (h : entries.Distinct)
    (hopen : Entries.within (openTable key) path entries = some (inner, changed)) :
    inner.Distinct ∧ changed.Distinct ∧ AtEnd (Vacant key) path changed := by
  refine h.within (P := fun _ => True) ?_ (atEnd_of_forall (fun _ => trivial) path entries) hopen
  intro entries inner changed hentries _ hwork
  simp only [Entries.openTable] at hwork
  split at hwork
  · rename_i hget
    obtain ⟨rfl, rfl⟩ := Prod.mk.inj (Option.some.inj hwork)
    exact ⟨distinct_nil, hentries, not_mem_texts_of_get? hget⟩
  · rename_i hget
    obtain ⟨rfl, rfl⟩ := Prod.mk.inj (Option.some.inj hwork)
    exact ⟨Draft.distinct_table_iff.mp (hentries.of_get? hget), hentries.without key,
      not_mem_texts_without entries key⟩
  · cases hwork

/-- Preparing one more table of an array repeats no key. -/
theorem Distinct.openElement (h : entries.Distinct)
    (hopen : Entries.within (openElement key) path entries = some (inner, changed)) :
    inner.Distinct ∧ changed.Distinct := by
  refine h.within_of_forall ?_ hopen
  intro entries inner changed hentries hwork
  simp only [Entries.openElement] at hwork
  split at hwork
  · obtain ⟨rfl, rfl⟩ := Prod.mk.inj (Option.some.inj hwork)
    exact ⟨distinct_nil, hentries⟩
  · obtain ⟨rfl, rfl⟩ := Prod.mk.inj (Option.some.inj hwork)
    exact ⟨distinct_nil, hentries⟩
  · cases hwork

/-- **Putting a table in its place** repeats no key if its key is vacant. -/
theorem Distinct.placeTable {span : Span} {done : Unit} (h : entries.Distinct)
    (htable : table.Distinct) (hvacant : AtEnd (Vacant key) path entries)
    (hplace : Entries.within (placeTable key span table) path entries = some (done, changed)) :
    changed.Distinct := by
  have hkept : True ∧ changed.Distinct ∧ AtEnd (fun _ => True) path changed := by
    refine h.within (F := fun _ => True) ?_ hvacant hplace
    intro entries done changed hentries hkey hwork
    obtain ⟨-, rfl⟩ := Prod.mk.inj (Option.some.inj hwork)
    exact ⟨trivial, hentries.append hkey (Draft.distinct_table_iff.mpr htable), trivial⟩
  exact hkept.2.1

/-- Putting a table at the end of an array repeats no key. -/
theorem Distinct.placeElement {span : Span} {done : Unit} (h : entries.Distinct)
    (htable : table.Distinct)
    (hplace : Entries.within (placeElement key span table) path entries = some (done, changed)) :
    changed.Distinct := by
  have hkept : True ∧ changed.Distinct := by
    refine h.within_of_forall (F := fun _ => True) ?_ hplace
    intro entries done changed hentries hwork
    refine ⟨trivial, ?_⟩
    have hone : ∀ item ∈ [(span, table)], item.2.Distinct := List.forall_mem_singleton.mpr htable
    simp only [Entries.placeElement] at hwork
    split at hwork
    · rename_i hget
      obtain ⟨-, rfl⟩ := Prod.mk.inj (Option.some.inj hwork)
      exact hentries.append (not_mem_texts_of_get? hget) (Draft.distinct_tables_iff.mpr hone)
    · rename_i items hget
      obtain ⟨-, rfl⟩ := Prod.mk.inj (Option.some.inj hwork)
      have hitems := Draft.distinct_tables_iff.mp (hentries.of_get? hget)
      exact hentries.replace key
        (Draft.distinct_tables_iff.mpr (List.forall_mem_append.mpr ⟨hitems, hone⟩))
    · cases hwork
  exact hkept.2

end Paths

end Entries

namespace Assembly

section Statements

variable {a b : Assembly} {header : Header} {span : Span} {entries : Entries}

/-- No table of a document half-way holds a key twice, and the key of the header that statements
stand under is vacant. -/
structure Distinct (a : Assembly) : Prop where
  finished : a.finished.Distinct
  entries : a.entries.Distinct
  vacant : ∀ header, a.header = some header → header.element = false →
    Entries.AtEnd (Entries.Vacant header.key) header.path a.finished

theorem distinct_empty : Distinct .empty :=
  ⟨Entries.distinct_nil, Entries.distinct_nil, fun _ hheader => by cases hheader⟩

/-- Putting the table of a header in its place repeats no key. -/
theorem Distinct.finish (h : a.Distinct) (hfinish : a.finish = some (span, entries)) :
    entries.Distinct := by
  obtain ⟨finished, finishedSpan, header, ownSpan, own⟩ := a
  cases header with
  | none =>
    obtain ⟨-, rfl⟩ := Prod.mk.inj (Option.some.inj hfinish)
    exact h.entries
  | some header =>
    obtain ⟨⟨done, changed⟩, hplace, hchanged⟩ := Option.bind_eq_some_iff.mp hfinish
    obtain ⟨-, rfl⟩ := Prod.mk.inj (Option.some.inj hchanged)
    cases helement : header.element with
    | true =>
      rw [helement] at hplace
      exact h.finished.placeElement h.entries hplace
    | false =>
      rw [helement] at hplace
      exact h.finished.placeTable h.entries (h.vacant header rfl helement) hplace

/-- **A header** repeats no key. -/
theorem Distinct.enter (h : a.Distinct) (henter : a.enter header = some b) : b.Distinct := by
  obtain ⟨⟨span, entries⟩, hfinish, hopen⟩ := Option.bind_eq_some_iff.mp henter
  obtain ⟨⟨inner, changed⟩, hprepare, hchanged⟩ := Option.bind_eq_some_iff.mp hopen
  obtain rfl := Option.some.inj hchanged
  have hentries := h.finish hfinish
  cases helement : header.element with
  | true =>
    rw [helement] at hprepare
    obtain ⟨hinner, hkept⟩ := hentries.openElement hprepare
    refine ⟨hkept, hinner, fun header' hheader helement' => ?_⟩
    obtain rfl := Option.some.inj hheader
    rw [helement] at helement'
    cases helement'
  | false =>
    rw [helement] at hprepare
    obtain ⟨hinner, hkept, hvacant⟩ := hentries.openTable hprepare
    refine ⟨hkept, hinner, fun header' hheader _ => ?_⟩
    obtain rfl := Option.some.inj hheader
    exact hvacant

/-- **A key with a value** repeats no key. -/
theorem Distinct.assign {path : List Key} {key : Key} {node : Node} (h : a.Distinct)
    (hnode : node.Distinct) (hassign : a.assign path key node = some b) : b.Distinct := by
  obtain ⟨changed, hentries, hchanged⟩ := Option.bind_eq_some_iff.mp hassign
  obtain rfl := Option.some.inj hchanged
  exact ⟨h.finished, h.entries.assign hnode hentries, h.vacant⟩

/-- The table of a document repeats no key. -/
theorem Distinct.toNode {node : Node} (h : a.Distinct) (hnode : a.toNode = some node) :
    node.Distinct := by
  obtain ⟨⟨span, entries⟩, hfinish, hchanged⟩ := Option.bind_eq_some_iff.mp hnode
  obtain rfl := Option.some.inj hchanged
  exact (h.finish hfinish).toNode _

end Statements

end Assembly

namespace Reader

section Yielding

variable {α γ : Type} {P : γ → Prop} {Q : α → Prop}

/-- What is read last has the property if what was read before has one. -/
theorem Yields.andThen {first : Reader α} {next : α → Reader γ} (hfirst : Yields Q first)
    (hnext : ∀ a, Q a → Yields P (next a)) : Yields P (first >>= next) := by
  intro cursor c left hread
  obtain ⟨a, mid, hok, hthen⟩ := exists_of_bind_ok hread
  exact hnext a (hfirst cursor a mid hok) mid c left hthen

theorem Yields.ite {first second : Reader γ} {p : Prop} [Decidable p] (h : Yields P first)
    (h' : Yields P second) : Yields P (if p then first else second) := by
  split
  · exact h
  · exact h'

theorem Yields.either {first second : Reader γ} (h : Yields P first) (h' : Yields P second) :
    Yields P (Reader.either first second) := by
  intro cursor c left hread
  cases hfirst : first cursor with
  | error place =>
    simp only [Reader.either, hfirst] at hread
    exact h' cursor c left hread
  | ok found =>
    simp only [Reader.either, hfirst] at hread
    exact h cursor c left (hfirst.trans hread)

theorem Yields.spanned {reader : Reader γ} (h : Yields P reader) :
    Yields (fun found => P found.2) (Reader.spanned reader) :=
  .bind fun _ => h.andThen fun _ hc => .bind fun _ => .pure hc

/-- What is not refused has the property that it has if it is there. -/
theorem Yields.orFail {found : Option γ} (h : ∀ c, found = some c → P c) :
    Yields P (Toml.orFail found) := by
  cases found with
  | none => exact .fail
  | some c => exact .pure (h c rfl)

end Yielding

end Reader

section Values

open Reader

variable {limit : Nat}

/-- An entry of an inline table whose value repeats no key. -/
abbrev DistinctPair (pair : List Key × Key × Node) : Prop := pair.2.2.Distinct

/-- Keys that are given values one after the other. -/
theorem Entries.Distinct.assignAll {pairs : List (List Key × Key × Node)}
    {entries changed : Entries} (h : entries.Distinct) (hpairs : ∀ pair ∈ pairs, DistinctPair pair)
    (hassign : pairs.foldlM
      (fun entries (path, key, node) => Entries.assign path true key node entries) entries =
        some changed) :
    changed.Distinct := by
  induction pairs generalizing entries with
  | nil =>
    obtain rfl := Option.some.inj hassign
    exact h
  | cons pair rest ih =>
    obtain ⟨hpair, hrest⟩ := List.forall_mem_cons.mp hpairs
    rw [List.foldlM_cons] at hassign
    obtain ⟨middle, hmiddle, hthen⟩ := Option.bind_eq_some_iff.mp hassign
    exact ih (h.assign hpair hmiddle) hrest hthen

/-- **An inline table** repeats no key. -/
theorem distinct_of_inlineTable {pairs : List (List Key × Key × Node)} {entries : List (Key × Node)}
    (hpairs : ∀ pair ∈ pairs, DistinctPair pair) (h : inlineTable pairs = some entries)
    (span : Option Span) : (Node.table span entries).Distinct := by
  obtain ⟨made, hmade, hentries⟩ := Option.bind_eq_some_iff.mp h
  obtain rfl := Option.some.inj hentries
  exact (Entries.distinct_nil.assignAll hpairs hmade).toNode span

/-- A table in braces repeats no key. -/
theorem yields_bracedTable {bound depth : Nat}
    (hpairs : Yields (fun pairs => ∀ pair ∈ pairs, DistinctPair pair)
      (pairs limit bound depth true)) :
    Yields Node.Distinct (do
      let (span, entries) ← Reader.spanned do
        Reader.skip ['{']
        let pairs ← pairs limit bound depth true
        match inlineTable pairs with
        | some entries => return entries
        | none => Reader.fail
      return .table (some span) entries) := by
  refine (Yields.spanned (P := fun entries => ∀ span, (Node.table span entries).Distinct)
    (.bind fun _ => hpairs.andThen fun found hfound => ?_)).andThen fun found hfound =>
      .pure (hfound _)
  cases hmade : inlineTable found with
  | none => exact .fail
  | some entries => exact .pure (distinct_of_inlineTable hfound hmade)

/-- An array in brackets repeats no key if its items do not. -/
theorem yields_bracketedArray {bound depth : Nat}
    (hitems : Yields (fun items => ∀ item ∈ items, Node.Distinct item) (items limit bound depth)) :
    Yields Node.Distinct (do
      let (span, items) ← Reader.spanned do
        Reader.skip ['[']
        items limit bound depth
      return .array span items) :=
  (Yields.spanned (.bind fun _ => hitems)).andThen fun _ hfound => .pure (.array _ hfound)

/-- A value at a depth repeats no key if items and entries do not. -/
theorem yields_value_succ {bound : Nat} (depth : Nat)
    (hitems : Yields (fun items => ∀ item ∈ items, Node.Distinct item)
      (items limit bound (depth + 1)))
    (hpairs : Yields (fun pairs => ∀ pair ∈ pairs, DistinctPair pair)
      (pairs limit bound (depth + 1) true)) :
    Yields Node.Distinct (value limit (bound + 1) depth) := by
  have harray := yields_bracketedArray hitems
  have htable := yields_bracedTable hpairs
  rw [value]
  refine .bind fun cs => .ite ?_ (.ite ?_ (.ite ?_ (.ite ?_ (.ite ?_ ?_))))
  · exact .bind fun _ => .pure (.string _ _)
  · exact .ite (.bind fun _ => harray) harray
  · exact .ite (.bind fun _ => htable) htable
  · exact .bind fun _ => .pure (.boolean _ _)
  · exact .bind fun _ => .pure (.boolean _ _)
  · exact .either (.bind fun _ => .pure (.datetime _ _))
      (.either (.bind fun _ => .pure (.float _ _)) (.bind fun _ => .pure (.integer _ _)))

/-- Items repeat no key if the first one and the others do not. -/
theorem yields_items_succ {bound depth : Nat}
    (hvalue : Yields Node.Distinct (value limit bound depth))
    (hitems : Yields (fun items => ∀ item ∈ items, Node.Distinct item) (items limit bound depth)) :
    Yields (fun items => ∀ item ∈ items, Node.Distinct item) (items limit (bound + 1) depth) := by
  rw [items]
  refine .bind fun _ => .bind fun _ => .ite (.pure fun _ hitem => by cases hitem) ?_
  refine hvalue.andThen fun item hitem => .bind fun _ => .bind fun _ => .ite ?_ ?_
  · exact hitems.andThen fun more hmore => .pure (List.forall_mem_cons.mpr ⟨hitem, hmore⟩)
  · exact .bind fun _ => .pure (List.forall_mem_singleton.mpr hitem)

/-- A pair and those behind it repeat no key in their values if its value and the others do not. -/
theorem yields_pair {bound depth : Nat} (hvalue : Yields Node.Distinct (value limit bound depth))
    (hpairs : Yields (fun pairs => ∀ pair ∈ pairs, DistinctPair pair)
      (pairs limit bound depth false)) :
    Yields (fun pairs => ∀ pair ∈ pairs, DistinctPair pair) (do
      let (path, key) ← keyPath limit
      Reader.skip ['=']
      blanks
      let node ← value limit bound depth
      blanks
      if ← Reader.skip? [','] then
        return (path, key, node) :: (← pairs limit bound depth false)
      Reader.skip ['}']
      return [(path, key, node)]) := by
  refine .bind fun _ => .bind fun _ => .bind fun _ => hvalue.andThen fun node hnode => ?_
  refine .bind fun _ => .bind fun _ => .ite ?_ ?_
  · exact hpairs.andThen fun more hmore => .pure (List.forall_mem_cons.mpr ⟨hnode, hmore⟩)
  · exact .bind fun _ => .pure (List.forall_mem_singleton.mpr hnode)

/-- Entries repeat no key in their values if the first one and the others do not. -/
theorem yields_pairs_succ {bound depth : Nat} (mayBeEmpty : Bool)
    (hvalue : Yields Node.Distinct (value limit bound depth))
    (hpairs : Yields (fun pairs => ∀ pair ∈ pairs, DistinctPair pair)
      (pairs limit bound depth false)) :
    Yields (fun pairs => ∀ pair ∈ pairs, DistinctPair pair)
      (pairs limit (bound + 1) depth mayBeEmpty) := by
  have hpair := yields_pair hvalue hpairs
  rw [pairs]
  refine .bind fun _ => .ite ?_ hpair
  exact .bind fun _ => .ite (.pure fun _ hmem => by cases hmem) hpair

/-- **Values** repeat no key. -/
theorem yields_values (bound : Nat) :
    (∀ depth, Yields Node.Distinct (value limit bound depth)) ∧
    (∀ depth, Yields (fun items => ∀ item ∈ items, Node.Distinct item) (items limit bound depth)) ∧
    ∀ depth mayBeEmpty,
      Yields (fun pairs => ∀ pair ∈ pairs, DistinctPair pair)
        (pairs limit bound depth mayBeEmpty) := by
  induction bound with
  | zero => exact ⟨fun _ => .fail, fun _ => .fail, fun _ _ => .fail⟩
  | succ bound ih =>
    obtain ⟨hvalue, hitems, hpairs⟩ := ih
    exact ⟨fun depth => yields_value_succ depth (hitems _) (hpairs _ _),
      fun depth => yields_items_succ (hvalue depth) (hitems depth),
      fun depth mayBeEmpty => yields_pairs_succ mayBeEmpty (hvalue depth) (hpairs depth false)⟩

theorem yields_keyValue : Yields DistinctPair (keyValue limit) := by
  refine .bind fun _ => .bind fun _ => .bind fun _ => .bind fun cs => ?_
  exact ((yields_values _).1 0).andThen fun node hnode => .bind fun _ => .pure hnode

/-- **Statements** repeat no key. -/
theorem yields_distinct_statements (bound : Nat) {a : Assembly} (h : a.Distinct) :
    Yields Assembly.Distinct (statements limit bound a) := by
  induction bound generalizing a with
  | zero => exact .fail
  | succ bound ih =>
    rw [statements]
    refine .bind fun _ => .bind fun cs => ?_
    split
    · exact .pure h
    · exact .bind fun _ => .bind fun _ => ih h
    · exact .bind fun _ => ih h
    · exact .bind fun _ => ih h
    · exact .bind fun header =>
        (Yields.orFail fun _ henter => h.enter henter).andThen fun _ hb => ih hb
    · exact yields_keyValue.andThen fun pair hpair =>
        (Yields.orFail fun _ hassign => h.assign hpair hassign).andThen fun _ hb => ih hb

/-- **A document** repeats no key. -/
theorem distinct_of_read {text : String} {node : Node}
    (h : Document.readWithin limit text = .ok node) : node.Distinct := by
  have hdocument : Yields Node.Distinct (document limit) :=
    .bind fun _ => .bind fun cs => (yields_distinct_statements _ Assembly.distinct_empty).andThen
      fun _ ha => Yields.orFail fun _ hnode => ha.toNode hnode
  cases hread : document limit (.ofText text.toList) with
  | error place =>
    rw [Document.readWithin, hread] at h
    cases h
  | ok found =>
    rw [Document.readWithin, hread] at h
    obtain rfl := Except.ok.inj h
    exact hdocument _ _ _ hread

end Values

end EngineFuzz.Toml
