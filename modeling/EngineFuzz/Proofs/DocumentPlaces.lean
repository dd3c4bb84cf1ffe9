import EngineFuzz.Toml.Draft
/-!
# Documents without places

Keys, values and tables under construction remember where they were written, and nothing that is
done with them looks at that: a key is found by its text, and a table may be added to because of
how it came about.  So it makes no difference whether places are forgotten before something is
done or afterwards.

* `Key.unplaced`, `Node.unplaced`, `Draft.unplaced`, `Entries.unplaced` — all places are forgotten;
* `Entries.unplaced_assign`, `Entries.unplaced_within` — giving a key a value, and following a path;
* `Assembly.unplaced_assign`, `Assembly.unplaced_enter`, `Assembly.unplaced_toNode` —
  statements, and the document that they make.
-/

namespace EngineFuzz.Toml

/-- What stands for a place that is forgotten. -/
def nowhere : Span := ⟨0, 0⟩

/-- A key without its place. -/
def Key.unplaced (key : Key) : Key := ⟨key.text, nowhere⟩

@[simp] theorem Key.text_unplaced (key : Key) : key.unplaced.text = key.text := rfl

mutual

/-- A value without the places in it. -/
def Node.unplaced : Node → Node
  | .string _ text => .string nowhere text
  | .integer _ value => .integer nowhere value
  | .float _ value => .float nowhere value
  | .boolean _ value => .boolean nowhere value
  | .datetime _ text => .datetime nowhere text
  | .array _ items => .array nowhere (Node.unplacedItems items)
  | .table span entries => .table (span.map fun _ => nowhere) (Node.unplacedEntries entries)

/-- Items without the places in them. -/
def Node.unplacedItems : List Node → List Node
  | [] => []
  | item :: rest => item.unplaced :: Node.unplacedItems rest

/-- Entries without the places in them. -/
def Node.unplacedEntries : List (Key × Node) → List (Key × Node)
  | [] => []
  | (key, node) :: rest => (key.unplaced, node.unplaced) :: Node.unplacedEntries rest

end

mutual

/-- A draft without the places in it. -/
def Draft.unplaced : Draft → Draft
  | .closed node => .closed node.unplaced
  | .table origin span entries =>
    .table origin (span.map fun _ => nowhere) (Draft.unplacedEntries entries)
  | .tables items => .tables (Draft.unplacedTables items)

/-- Draft entries without the places in them. -/
def Draft.unplacedEntries : List (Key × Draft) → List (Key × Draft)
  | [] => []
  | (key, draft) :: rest => (key.unplaced, draft.unplaced) :: Draft.unplacedEntries rest

/-- The tables of an array without the places in them. -/
def Draft.unplacedTables : List (Span × List (Key × Draft)) → List (Span × List (Key × Draft))
  | [] => []
  | (_, entries) :: rest => (nowhere, Draft.unplacedEntries entries) :: Draft.unplacedTables rest

end

/-- Draft entries without the places in them. -/
abbrev Entries.unplaced (entries : Entries) : Entries := Draft.unplacedEntries entries

section Shapes

theorem Node.unplacedItems_eq_map (items : List Node) :
    Node.unplacedItems items = items.map Node.unplaced := by
  induction items with
  | nil => rfl
  | cons item rest ih => rw [Node.unplacedItems, ih, List.map_cons]

theorem Entries.unplaced_eq_map (entries : Entries) :
    entries.unplaced = entries.map fun entry => (entry.1.unplaced, entry.2.unplaced) := by
  induction entries with
  | nil => rfl
  | cons entry rest ih =>
    rw [List.map_cons, ← ih]
    rfl

theorem Draft.unplacedTables_eq_map (items : List (Span × Entries)) :
    Draft.unplacedTables items = items.map fun item => (nowhere, Entries.unplaced item.2) := by
  induction items with
  | nil => rfl
  | cons item rest ih => rw [Draft.unplacedTables, ih, List.map_cons]

/-- An array of tables without places stands nowhere. -/
theorem Draft.span_unplacedTables (items : List (Span × Entries)) :
    (⟨((Draft.unplacedTables items).head?.map (·.1.start)).getD 0,
      ((Draft.unplacedTables items).getLast?.map (·.1.stop)).getD 0⟩ : Span) = nowhere := by
  rw [Draft.unplacedTables_eq_map, List.head?_map, List.getLast?_map]
  cases items.head? <;> cases items.getLast? <;> rfl

end Shapes

section Drafts

mutual

/-- Forgetting places in a draft forgets them in its value. -/
theorem Draft.toNode_unplaced : (draft : Draft) → draft.unplaced.toNode = draft.toNode.unplaced
  | .closed node => rfl
  | .table origin span entries => by
    simp only [Draft.unplaced, Draft.toNode, Node.unplaced, Draft.toNodes_unplacedEntries entries]
  | .tables items => by
    simp only [Draft.unplaced, Draft.toNode, Node.unplaced, Draft.toTables_unplacedTables items,
      Draft.span_unplacedTables items]

theorem Draft.toNodes_unplacedEntries : (entries : List (Key × Draft)) →
    Draft.toNodes (Draft.unplacedEntries entries) = Node.unplacedEntries (Draft.toNodes entries)
  | [] => rfl
  | (key, draft) :: rest => by
    simp only [Draft.unplacedEntries, Draft.toNodes, Node.unplacedEntries,
      Draft.toNode_unplaced draft, Draft.toNodes_unplacedEntries rest]

theorem Draft.toTables_unplacedTables : (items : List (Span × List (Key × Draft))) →
    Draft.toTables (Draft.unplacedTables items) = Node.unplacedItems (Draft.toTables items)
  | [] => rfl
  | (span, entries) :: rest => by
    simp only [Draft.unplacedTables, Draft.toTables, Node.unplacedItems, Node.unplaced,
      Draft.toNodes_unplacedEntries entries, Draft.toTables_unplacedTables rest, Option.map_some]

end

end Drafts

/-- What is done with something that was found does not depend on places if neither part does. -/
theorem map_bind_eq {α α' β β' : Type} {u : α → α'} {v : β → β'} {x : Option α} {y : Option α'}
    {f : α → β} {g : α' → β'} (h : x.map u = y) (hf : ∀ a, v (f a) = g (u a)) :
    (x >>= fun a => pure (f a)).map v = y >>= fun a => pure (g a) := by
  subst h
  cases x with
  | none => rfl
  | some a => exact congrArg some (hf a)

namespace Entries

variable (entries : Entries) (key : Key)

theorem get?_unplaced :
    entries.unplaced.get? key.unplaced = (entries.get? key).map Draft.unplaced := by
  rw [unplaced_eq_map]
  simp only [get?, List.find?_map, Option.map_map]
  rfl

theorem unplaced_append (others : Entries) :
    Entries.unplaced (entries ++ others) = entries.unplaced ++ Entries.unplaced others := by
  simp only [unplaced_eq_map, List.map_append]

theorem unplaced_replace (draft : Draft) :
    (entries.replace key draft).unplaced =
      entries.unplaced.replace key.unplaced draft.unplaced := by
  simp only [unplaced_eq_map, replace, List.map_map]
  refine List.map_congr_left fun entry _ => ?_
  by_cases heq : entry.1.text = key.text <;> simp [heq]

theorem unplaced_without :
    (entries.without key).unplaced = entries.unplaced.without key.unplaced := by
  simp only [unplaced_eq_map, without, List.filter_map]
  rfl

theorem unplaced_singleton (draft : Draft) :
    Entries.unplaced (entries ++ [(key, draft)]) =
      entries.unplaced ++ [(key.unplaced, draft.unplaced)] :=
  unplaced_append entries [(key, draft)]

/-- A key that is given a table: what happens to the places in it. -/
theorem unplaced_replace_table (origin : Origin) (span : Option Span) (inner : Entries) :
    (entries.replace key (.table origin span inner)).unplaced =
      entries.unplaced.replace key.unplaced
        (.table origin (span.map fun _ => nowhere) (Entries.unplaced inner)) :=
  unplaced_replace entries key _

theorem unplaced_replace_tables (items : List (Span × Entries)) (span : Span) (inner : Entries) :
    (entries.replace key (.tables (items.dropLast ++ [(span, inner)]))).unplaced =
      entries.unplaced.replace key.unplaced
        (.tables ((Draft.unplacedTables items).dropLast ++
          [(nowhere, Entries.unplaced inner)])) := by
  rw [unplaced_replace, Draft.unplaced]
  simp only [Draft.unplacedTables_eq_map, List.map_append, List.map_dropLast, List.map_cons,
    List.map_nil]

/-- **Giving a key a value** does not depend on places. -/
theorem unplaced_assign (path : List Key) (mayHold : Bool) (key : Key) (node : Node)
    (entries : Entries) :
    (assign path mayHold key node entries).map Entries.unplaced =
      assign (path.map Key.unplaced) mayHold key.unplaced node.unplaced entries.unplaced := by
  induction path generalizing mayHold entries with
  | nil =>
    simp only [assign, List.map_nil, get?_unplaced, Option.isSome_map]
    split
    · rfl
    · rw [Option.map_some, unplaced_singleton, Draft.unplaced]
  | cons step path ih =>
    simp only [List.map_cons, assign, get?_unplaced]
    cases entries.get? step with
    | none => exact map_bind_eq (ih true []) fun inner => unplaced_singleton entries step _
    | some draft =>
      cases draft with
      | closed node => rfl
      | table origin span inner =>
        simp only [Option.map_some, Draft.unplaced]
        split
        · rfl
        · exact map_bind_eq (ih _ inner) fun _ => unplaced_replace_table entries step _ _ _
      | tables items =>
        simp only [Option.map_some, Draft.unplaced, Draft.unplacedTables_eq_map, List.getLast?_map]
        cases items.getLast? with
        | none => rfl
        | some last =>
          simp only [Option.map_some, ← Draft.unplacedTables_eq_map]
          exact map_bind_eq (ih false last.2) fun _ => unplaced_replace_tables entries step _ _ _

/-- What is found and what is left, without places. -/
abbrev unplacedPair {α α' : Type} (u : α → α') (pair : α × Entries) : α' × Entries :=
  (u pair.1, Entries.unplaced pair.2)

/-- **Following a path** does not depend on places if the work at its end does not. -/
theorem unplaced_within {α α' : Type} {u : α → α'} {work : Entries → Option (α × Entries)}
    {work' : Entries → Option (α' × Entries)}
    (h : ∀ entries, (work entries).map (unplacedPair u) = work' (Entries.unplaced entries))
    (path : List Key) (entries : Entries) :
    (within work path entries).map (unplacedPair u) =
      within work' (path.map Key.unplaced) entries.unplaced := by
  induction path generalizing entries with
  | nil => exact h entries
  | cons step path ih =>
    simp only [List.map_cons, within, get?_unplaced]
    cases entries.get? step with
    | none =>
      exact map_bind_eq (ih []) fun found => Prod.ext rfl (unplaced_singleton entries step _)
    | some draft =>
      cases draft with
      | closed node => rfl
      | table origin span inner =>
        exact map_bind_eq (ih inner) fun found =>
          Prod.ext rfl (unplaced_replace_table entries step _ _ _)
      | tables items =>
        simp only [Option.map_some, Draft.unplaced, Draft.unplacedTables_eq_map, List.getLast?_map]
        cases items.getLast? with
        | none => rfl
        | some last =>
          simp only [Option.map_some, ← Draft.unplacedTables_eq_map]
          exact map_bind_eq (ih last.2) fun found =>
            Prod.ext rfl (unplaced_replace_tables entries step _ _ _)

theorem unplaced_openTable :
    (openTable key entries).map (unplacedPair Entries.unplaced) =
      openTable key.unplaced entries.unplaced := by
  simp only [openTable, get?_unplaced]
  cases entries.get? key with
  | none => rfl
  | some draft =>
    cases draft with
    | closed node => rfl
    | tables items => rfl
    | table origin span inner =>
      cases origin with
      | header => rfl
      | dotted => rfl
      | passed => exact congrArg some (Prod.ext rfl (unplaced_without entries key))

theorem unplaced_openElement :
    (openElement key entries).map (unplacedPair Entries.unplaced) =
      openElement key.unplaced entries.unplaced := by
  simp only [openElement, get?_unplaced]
  cases entries.get? key with
  | none => rfl
  | some draft => cases draft <;> rfl

variable (span : Span) (table : Entries)

theorem unplaced_placeTable :
    (placeTable key span table entries).map (unplacedPair id) =
      placeTable key.unplaced nowhere table.unplaced entries.unplaced :=
  congrArg some (Prod.ext rfl (unplaced_singleton entries key _))

theorem unplaced_placeElement :
    (placeElement key span table entries).map (unplacedPair id) =
      placeElement key.unplaced nowhere table.unplaced entries.unplaced := by
  simp only [placeElement, get?_unplaced]
  cases entries.get? key with
  | none => exact congrArg some (Prod.ext rfl (unplaced_singleton entries key _))
  | some draft =>
    cases draft with
    | closed node => rfl
    | table origin span inner => rfl
    | tables items =>
      refine congrArg some (Prod.ext rfl ((unplaced_replace entries key _).trans ?_))
      rw [Draft.unplaced, Draft.unplacedTables_eq_map, List.map_append,
        ← Draft.unplacedTables_eq_map]
      rfl

end Entries

/-- A header without the places in it. -/
def Header.unplaced (header : Header) : Header :=
  ⟨header.path.map Key.unplaced, header.key.unplaced, header.element, nowhere⟩

namespace Assembly

/-- A document half-way without the places in it. -/
def unplaced (a : Assembly) : Assembly :=
  ⟨a.finished.unplaced, nowhere, a.header.map Header.unplaced, nowhere, a.entries.unplaced⟩

variable (a : Assembly)

/-- Putting a table in its place does not depend on places in the text. -/
theorem unplaced_finish :
    a.finish.map (fun found => (nowhere, Entries.unplaced found.2)) = a.unplaced.finish := by
  obtain ⟨finished, finishedSpan, header, span, entries⟩ := a
  cases header with
  | none => rfl
  | some header =>
    obtain ⟨path, key, element, headerSpan⟩ := header
    cases element with
    | false =>
      exact map_bind_eq (Entries.unplaced_within (fun _ => Entries.unplaced_placeTable _ _ _ _) path
        finished) fun _ => rfl
    | true =>
      exact map_bind_eq
        (Entries.unplaced_within (fun _ => Entries.unplaced_placeElement _ _ _ _) path
        finished) fun _ => rfl

/-- A value without places ends nowhere. -/
theorem stop_unplaced (node : Node) :
    (node.unplaced.span?.map Span.stop).getD nowhere.stop = 0 := by
  cases node with
  | table span entries => cases span <;> rfl
  | _ => rfl

/-- **Giving a key a value** in a document does not depend on places. -/
theorem unplaced_assign (path : List Key) (key : Key) (node : Node) :
    (a.assign path key node).map unplaced =
      a.unplaced.assign (path.map Key.unplaced) key.unplaced node.unplaced := by
  refine map_bind_eq (Entries.unplaced_assign path true key node a.entries) fun entries => ?_
  simp only [unplaced, stop_unplaced]
  rfl

/-- **Going on under a header** does not depend on places. -/
theorem unplaced_enter (header : Header) :
    (a.enter header).map unplaced = a.unplaced.enter header.unplaced := by
  rw [enter, enter, ← unplaced_finish]
  cases a.finish with
  | none => rfl
  | some found =>
    obtain ⟨path, key, element, span⟩ := header
    cases element with
    | false =>
      exact map_bind_eq (Entries.unplaced_within (fun _ => Entries.unplaced_openTable _ _) path
        found.2) fun _ => rfl
    | true =>
      exact map_bind_eq (Entries.unplaced_within (fun _ => Entries.unplaced_openElement _ _) path
        found.2) fun _ => rfl

/-- The document does not depend on places but for its own. -/
theorem unplaced_toNode : a.toNode.map Node.unplaced = a.unplaced.toNode := by
  rw [toNode, toNode, ← unplaced_finish]
  cases a.finish with
  | none => rfl
  | some found =>
    have hentries := Draft.toNodes_unplacedEntries found.2
    exact congrArg (fun entries => some (Node.table (some nowhere) entries)) hentries.symm

end Assembly

end EngineFuzz.Toml
