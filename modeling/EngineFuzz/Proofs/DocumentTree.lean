import EngineFuzz.Proofs.DocumentPlaces
import Mathlib.Data.List.Nodup
/-!
# The tree that a document denotes

A document denotes a tree: tables, in which every key has one value, and arrays, texts and
numbers below them.  The tree does not tell in which order keys were written, where, and whether
a table was written under a header, in braces or by dotted keys.

A table is taken for what stands under each key, which is the value of the first entry with that
key.  So the order does not matter in tables that hold no key twice.

* `Tree`, `Node.tree` — the tree of a value;
* `nodeUnder` — the value under a key, and `Node.treeUnder_eq_map`, its tree;
* `Node.tree_table_of_perm`, `Node.tree_unplaced` — neither the order of keys nor places matter;
* `Node.isLike`, `Node.tree_eq_of_isLike` — a test that finds out if two values have the same
  tree, when their keys stand in the same order.
-/

namespace EngineFuzz.Toml

/-- What a value denotes.  A table is known by what stands under each key.  Dates and times are
not told apart: there is more than one way to write each, and nothing here is made of them. -/
inductive Tree where
  | string (text : String)
  | integer (value : Int64)
  | float (value : Binary64)
  | boolean (value : Bool)
  | datetime
  | array (items : List Tree)
  | table (under : String → Option Tree)

mutual

/-- The tree of a value. -/
def Node.tree : Node → Tree
  | .string _ text => .string text
  | .integer _ value => .integer value
  | .float _ value => .float value
  | .boolean _ value => .boolean value
  | .datetime _ _ => .datetime
  | .array _ items => .array (Node.trees items)
  | .table _ entries => .table (Node.treeUnder entries)

/-- The trees of items. -/
def Node.trees : List Node → List Tree
  | [] => []
  | item :: rest => item.tree :: Node.trees rest

/-- The tree that entries have under a key. -/
def Node.treeUnder : List (Key × Node) → String → Option Tree
  | [], _ => none
  | (key, node) :: rest, text =>
    if key.text = text then some node.tree else Node.treeUnder rest text

end

/-- The value that entries have under a key. -/
def nodeUnder (entries : List (Key × Node)) (text : String) : Option Node :=
  (entries.find? (·.1.text = text)).map (·.2)

section Trees

variable {entries entries' : List (Key × Node)} {key : Key} {node : Node} {text : String}

theorem Node.trees_eq_map (items : List Node) : Node.trees items = items.map Node.tree := by
  induction items with
  | nil => rfl
  | cons item rest ih => rw [Node.trees, ih, List.map_cons]

theorem nodeUnder_cons (rest : List (Key × Node)) (text : String) :
    nodeUnder ((key, node) :: rest) text =
      if key.text = text then some node else nodeUnder rest text := by
  by_cases h : key.text = text <;> simp [nodeUnder, h]

theorem nodeUnder_cons_self (rest : List (Key × Node)) :
    nodeUnder ((key, node) :: rest) key.text = some node := by
  rw [nodeUnder_cons, if_pos rfl]

theorem nodeUnder_cons_of_ne (h : key.text ≠ text) (rest : List (Key × Node)) :
    nodeUnder ((key, node) :: rest) text = nodeUnder rest text := by
  rw [nodeUnder_cons, if_neg h]

/-- What the tree of a table has under a key is the tree of what the table has there. -/
theorem Node.treeUnder_eq_map (entries : List (Key × Node)) (text : String) :
    Node.treeUnder entries text = (nodeUnder entries text).map Node.tree := by
  induction entries with
  | nil => rfl
  | cons entry rest ih =>
    obtain ⟨key, node⟩ := entry
    rw [Node.treeUnder, ih, nodeUnder_cons]
    split <;> rfl

/-- A value that stands under a key is the value of an entry. -/
theorem exists_mem_of_nodeUnder (h : nodeUnder entries text = some node) :
    ∃ entry ∈ entries, entry.1.text = text ∧ entry.2 = node := by
  obtain ⟨entry, hentry, hnode⟩ := Option.map_eq_some_iff.mp h
  exact ⟨entry, List.mem_of_find?_eq_some hentry, by simpa using List.find?_some hentry, hnode⟩

/-- Nothing stands under a key that is not there. -/
theorem nodeUnder_eq_none_iff : nodeUnder entries text = none ↔ text ∉ entries.map (·.1.text) := by
  simp [nodeUnder]

/-- **The order of keys** does not matter in a table without repetitions. -/
theorem nodeUnder_of_perm (hperm : entries.Perm entries') (hkeys : (entries.map (·.1.text)).Nodup)
    (text : String) : nodeUnder entries text = nodeUnder entries' text := by
  induction hperm with
  | nil => rfl
  | cons entry _ ih =>
    obtain ⟨key, node⟩ := entry
    rw [nodeUnder_cons, nodeUnder_cons, ih (List.nodup_cons.mp hkeys).2]
  | swap entry other rest =>
    obtain ⟨key, node⟩ := entry
    obtain ⟨key', node'⟩ := other
    have hne : key'.text ≠ key.text := fun heq => by simp [heq] at hkeys
    simp only [nodeUnder_cons]
    by_cases hkey : key.text = text
    · rw [if_pos hkey, if_pos hkey, if_neg fun heq => hne (heq.trans hkey.symm)]
    · rw [if_neg hkey, if_neg hkey]
  | trans hfirst hsecond ih ih' =>
    rw [ih hkeys, ih' ((hfirst.map _).nodup_iff.mp hkeys)]

/-- Tables are the same tree if one has the entries of the other in another order. -/
theorem Node.tree_table_of_perm (hperm : entries.Perm entries')
    (hkeys : (entries.map (·.1.text)).Nodup) (span span' : Option Span) :
    (Node.table span entries).tree = (Node.table span' entries').tree := by
  rw [Node.tree, Node.tree, Tree.table.injEq]
  funext text
  rw [treeUnder_eq_map, treeUnder_eq_map, nodeUnder_of_perm hperm hkeys]

end Trees

section Places

mutual

/-- Where a value was written does not matter for its tree. -/
theorem Node.tree_unplaced : (node : Node) → node.unplaced.tree = node.tree
  | .string _ _ | .integer _ _ | .float _ _ | .boolean _ _ | .datetime _ _ => rfl
  | .array _ items => by rw [Node.unplaced, Node.tree, Node.trees_unplacedItems items, Node.tree]
  | .table _ entries => by
    rw [Node.unplaced, Node.tree, Node.treeUnder_unplacedEntries entries, Node.tree]

theorem Node.trees_unplacedItems : (items : List Node) →
    Node.trees (Node.unplacedItems items) = Node.trees items
  | [] => rfl
  | item :: rest => by
    rw [Node.unplacedItems, Node.trees, Node.tree_unplaced item,
      Node.trees_unplacedItems rest, Node.trees]

theorem Node.treeUnder_unplacedEntries : (entries : List (Key × Node)) →
    Node.treeUnder (Node.unplacedEntries entries) = Node.treeUnder entries
  | [] => rfl
  | (key, node) :: rest => by
    funext text
    rw [Node.unplacedEntries, Node.treeUnder, Node.tree_unplaced node,
      Node.treeUnder_unplacedEntries rest, Key.text_unplaced, Node.treeUnder]

end

end Places

section Likeness

mutual

/-- Whether two values are the same but for places and for the way in which tables are written. -/
def Node.isLike : Node → Node → Bool
  | .string _ text, .string _ text' => text = text'
  | .integer _ value, .integer _ value' => value = value'
  | .float _ value, .float _ value' => value = value'
  | .boolean _ value, .boolean _ value' => value = value'
  | .datetime _ _, .datetime _ _ => true
  | .array _ items, .array _ items' => Node.areLike items items'
  | .table _ entries, .table _ entries' => Node.entriesAreLike entries entries'
  | _, _ => false

/-- Whether items are the same in this sense. -/
def Node.areLike : List Node → List Node → Bool
  | [], [] => true
  | item :: rest, item' :: rest' => item.isLike item' && Node.areLike rest rest'
  | _, _ => false

/-- Whether entries are the same in this sense, in the same order. -/
def Node.entriesAreLike : List (Key × Node) → List (Key × Node) → Bool
  | [], [] => true
  | (key, node) :: rest, (key', node') :: rest' =>
    key.text = key'.text && node.isLike node' && Node.entriesAreLike rest rest'
  | _, _ => false

end

mutual

/-- Values that are the same in this sense have the same tree. -/
theorem Node.tree_eq_of_isLike :
    ∀ {node node' : Node}, node.isLike node' = true → node.tree = node'.tree
  | .string _ _, node', h => by cases node' <;> simp_all [Node.isLike, Node.tree]
  | .integer _ _, node', h => by cases node' <;> simp_all [Node.isLike, Node.tree]
  | .float _ _, node', h => by cases node' <;> simp_all [Node.isLike, Node.tree]
  | .boolean _ _, node', h => by cases node' <;> simp_all [Node.isLike, Node.tree]
  | .datetime _ _, node', h => by cases node' <;> simp_all [Node.isLike, Node.tree]
  | .array _ items, node', h => by
    cases node' with
    | array _ items' =>
      rw [Node.tree, Node.tree, Node.trees_eq_of_areLike (by simpa [Node.isLike] using h)]
    | _ => simp [Node.isLike] at h
  | .table _ entries, node', h => by
    cases node' with
    | table _ entries' =>
      rw [Node.tree, Node.tree,
        Node.treeUnder_eq_of_entriesAreLike (by simpa [Node.isLike] using h)]
    | _ => simp [Node.isLike] at h

theorem Node.trees_eq_of_areLike : ∀ {items items' : List Node}, Node.areLike items items' = true →
    Node.trees items = Node.trees items'
  | [], [], _ => rfl
  | [], _ :: _, h => by simp [Node.areLike] at h
  | _ :: _, [], h => by simp [Node.areLike] at h
  | item :: rest, item' :: rest', h => by
    obtain ⟨hitem, hrest⟩ := Bool.and_eq_true_iff.mp (by simpa [Node.areLike] using h)
    rw [Node.trees, Node.trees, Node.tree_eq_of_isLike hitem, Node.trees_eq_of_areLike hrest]

theorem Node.treeUnder_eq_of_entriesAreLike : ∀ {entries entries' : List (Key × Node)},
    Node.entriesAreLike entries entries' = true → Node.treeUnder entries = Node.treeUnder entries'
  | [], [], _ => rfl
  | [], _ :: _, h => by simp [Node.entriesAreLike] at h
  | _ :: _, [], h => by simp [Node.entriesAreLike] at h
  | (key, node) :: rest, (key', node') :: rest', h => by
    simp only [Node.entriesAreLike, Bool.and_eq_true, decide_eq_true_eq] at h
    obtain ⟨⟨hkey, hnode⟩, hrest⟩ := h
    funext text
    rw [Node.treeUnder, Node.treeUnder, hkey, Node.tree_eq_of_isLike hnode,
      Node.treeUnder_eq_of_entriesAreLike hrest]

end

end Likeness

end EngineFuzz.Toml
