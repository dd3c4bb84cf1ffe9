import EngineFuzz.Proofs.ConfigFields
import EngineFuzz.Proofs.DistinctKeys
import EngineFuzz.Proofs.DocumentTree
/-!
# Records do not depend on the order of keys

A record is read from a table key by key, in the order of the document, and the first fault ends
the reading.  Which fault that is depends on the order.  Whether there is one does not, nor does
the record, as long as any two fields may be read in either order: a key can then be moved to
the place that its field has among the fields, past all that are read before it.  So what comes
of a table without repetitions is what comes of looking for each field in turn, and an array is
read in that way from the beginning.

* `decodeNamed` — the fields in their own order, each with what is found under its name;
* `Field.Swap`, `Orderless` — fields that may be read in either order;
* `decodeEntries_eq_ok_iff` — a table, in whatever order its keys are;
* `decodeRecord_eq_ok_iff` — a record, from a table or an array;
* `Given`, `decodeNamed_cons_eq_ok_iff` — what one field makes of a record, or its default.
-/

namespace EngineFuzz.Toml

section Order

variable {ρ : Type} {fields : List (Field ρ)} {record changed : ρ} {entries : List (Key × Node)}
  {find find' : String → Option Node}

/-- What a field makes of what is found under its name, if anything is. -/
def Field.readFound (field : Field ρ) (record : ρ) : Option Node → Decoded ρ
  | none => .ok record
  | some node => field.read node record

/-- Reads fields in their own order, each from what is found under its name. -/
def decodeNamed (find : String → Option Node) : List (Field ρ) → ρ → Decoded ρ
  | [], record => .ok record
  | field :: fields, record => do
    let record ← field.readFound record (find field.name)
    decodeNamed find fields record

/-- Two fields that may be read in either order. -/
def Field.Swap (first second : Field ρ) : Prop :=
  ∀ node node' record, (first.read node record >>= second.read node').toOption =
    (second.read node' record >>= first.read node).toOption

/-- Fields with names of their own, any two of which may be read in either order. -/
structure Orderless (fields : List (Field ρ)) : Prop where
  names : (fields.map Field.name).Nodup
  swap : fields.Pairwise Field.Swap

/-- Fields that set different parts of a record may be read in either order. -/
theorem Field.swap_of_sets {α β : Type} {name name' : String} {decode : Node → Decoded α}
    {decode' : Node → Decoded β} {set : α → ρ → ρ} {set' : β → ρ → ρ}
    (h : ∀ a b record, set' b (set a record) = set a (set' b record)) :
    Field.Swap ⟨name, fun node record => decode node >>= fun a => pure (set a record)⟩
      ⟨name', fun node record => decode' node >>= fun b => pure (set' b record)⟩ := by
  intro node node' record
  dsimp only
  cases decode node with
  | error fault =>
    cases decode' node' with
    | error fault' => rfl
    | ok b => rfl
  | ok a =>
    cases decode' node' with
    | error fault' => rfl
    | ok b => exact congrArg some (h a b record)

/-- Fields look at nothing but what stands under their names. -/
theorem decodeNamed_congr (h : ∀ field ∈ fields, find field.name = find' field.name) (record : ρ) :
    decodeNamed find fields record = decodeNamed find' fields record := by
  induction fields generalizing record with
  | nil => rfl
  | cons field fields ih =>
    obtain ⟨hfield, hfields⟩ := List.forall_mem_cons.mp h
    rw [decodeNamed, decodeNamed, hfield]
    congr 1
    funext record
    exact ih hfields record

/-- Nothing is read where nothing is found. -/
theorem decodeNamed_none (fields : List (Field ρ)) (record : ρ) :
    decodeNamed (fun _ => none) fields record = .ok record := by
  induction fields with
  | nil => rfl
  | cons field fields ih => exact ih

/-- A field may be read before or after another one, if there is anything for the other one. -/
theorem Field.Swap.readFound {first second : Field ρ} (h : first.Swap second) (found : Option Node)
    (node : Node) (record : ρ) :
    (first.readFound record found >>= second.read node).toOption =
      (second.read node record >>= fun record => first.readFound record found).toOption := by
  cases found with
  | none =>
    change (second.read node record).toOption = _
    cases second.read node record <;> rfl
  | some node' => exact h node' node record

/-- **A key in front** of a table is as good as the same key in the place of its field. -/
theorem toOption_decodeNamed_cons (h : Orderless fields) {field : Field ρ} {key : Key} {node : Node}
    (hfield : field ∈ fields) (hname : field.name = key.text)
    (hkey : nodeUnder entries key.text = none) (record : ρ) :
    (decodeNamed (nodeUnder ((key, node) :: entries)) fields record).toOption =
      (field.read node record >>= decodeNamed (nodeUnder entries) fields).toOption := by
  obtain ⟨hnames, hswap⟩ := h
  induction fields generalizing record with
  | nil => cases hfield
  | cons first fields ih =>
    rw [List.map_cons, List.nodup_cons] at hnames
    obtain ⟨hfresh, hnames⟩ := hnames
    obtain ⟨hfirst, hswap⟩ := List.pairwise_cons.mp hswap
    rcases List.mem_cons.mp hfield with rfl | hlater
    · -- none of the other fields has this name
      have hothers : ∀ other ∈ fields, nodeUnder ((key, node) :: entries) other.name =
          nodeUnder entries other.name := fun other hother => by
        refine nodeUnder_cons_of_ne (fun heq => hfresh ?_) entries
        exact hname ▸ heq ▸ List.mem_map_of_mem hother
      have hafter : decodeNamed (nodeUnder entries) (field :: fields) =
          decodeNamed (nodeUnder entries) fields := by
        funext record
        rw [decodeNamed, hname, hkey]
        rfl
      rw [hafter, decodeNamed, hname, nodeUnder_cons_self]
      simp only [toOption_bind, Field.readFound, decodeNamed_congr hothers]
    · have hne : key.text ≠ first.name :=
        fun heq => hfresh (heq ▸ hname ▸ List.mem_map_of_mem hlater)
      have hlook : nodeUnder ((key, node) :: entries) first.name = nodeUnder entries first.name :=
        nodeUnder_cons_of_ne hne entries
      have hmoved := (hfirst field hlater).readFound (nodeUnder entries first.name) node record
      rw [toOption_bind, toOption_bind] at hmoved
      -- the later fields see the key as a key in front, and the first one is read before it
      calc (decodeNamed (nodeUnder ((key, node) :: entries)) (first :: fields) record).toOption
          = (first.readFound record (nodeUnder entries first.name)).toOption.bind fun middle =>
              (decodeNamed (nodeUnder ((key, node) :: entries)) fields middle).toOption := by
            rw [decodeNamed, toOption_bind, hlook]
        _ = (first.readFound record (nodeUnder entries first.name)).toOption.bind fun middle =>
              (field.read node middle).toOption.bind fun last =>
                (decodeNamed (nodeUnder entries) fields last).toOption := by
            simp only [ih hlater _ hnames hswap, toOption_bind]
        _ = (field.read node record).toOption.bind fun middle =>
              (first.readFound middle (nodeUnder entries first.name)).toOption.bind fun last =>
                (decodeNamed (nodeUnder entries) fields last).toOption := by
            rw [← Option.bind_assoc, hmoved, Option.bind_assoc]
        _ = (field.read node record >>= decodeNamed (nodeUnder entries)
          (first :: fields)).toOption := by
            simp only [toOption_bind, decodeNamed]

/-- All keys are known if the first one and the others are. -/
theorem forall_known_cons {names : List String} {key : Key} {node : Node}
    (hkey : nodeUnder entries key.text = none) :
    (∀ text found, nodeUnder ((key, node) :: entries) text = some found → text ∈ names) ↔
      key.text ∈ names ∧ ∀ text found, nodeUnder entries text = some found → text ∈ names := by
  constructor
  · intro h
    refine ⟨h key.text node (nodeUnder_cons_self entries), fun text found hfound => h text found ?_⟩
    rw [nodeUnder_cons, if_neg fun heq => by rw [← heq, hkey] at hfound; cases hfound]
    exact hfound
  · rintro ⟨hmem, hknown⟩ text found hfound
    rw [nodeUnder_cons] at hfound
    split at hfound
    · rename_i heq
      exact heq ▸ hmem
    · exact hknown text found hfound

/-- A known key names a field. -/
theorem exists_find?_of_mem_names {text : String} (h : text ∈ fields.map Field.name) :
    ∃ field, fields.find? (·.name = text) = some field := by
  obtain ⟨field, hfield, hname⟩ := List.mem_map.mp h
  rw [← Option.isSome_iff_exists, List.find?_isSome]
  exact ⟨field, hfield, by simpa using hname⟩

/-- **A table**, in whatever order its keys are, is read if each names a field and if each field
can be read from what stands under its name; and what comes of it is what comes of that. -/
theorem decodeEntries_eq_ok_iff (h : Orderless fields) (hkeys : (entries.map (·.1.text)).Nodup) :
    decodeEntries fields entries record = .ok changed ↔
      (∀ text node, nodeUnder entries text = some node → text ∈ fields.map Field.name) ∧
        decodeNamed (nodeUnder entries) fields record = .ok changed := by
  induction entries generalizing record with
  | nil =>
    have hnone : decodeNamed (nodeUnder []) fields record = .ok record :=
      decodeNamed_none fields record
    rw [hnone]
    constructor
    · intro hread
      refine ⟨fun text node hfound => ?_, hread⟩
      cases hfound
    · exact fun hread => hread.2
  | cons entry rest ih =>
    obtain ⟨key, node⟩ := entry
    obtain ⟨hfresh, hkeys⟩ := List.nodup_cons.mp hkeys
    have hkey : nodeUnder rest key.text = none := nodeUnder_eq_none_iff.mpr hfresh
    have hmoved : ∀ field, fields.find? (·.name = key.text) = some field →
        field.name = key.text ∧ field ∈ fields ∧
          (decodeNamed (nodeUnder ((key, node) :: rest)) fields record = .ok changed ↔
            ∃ middle, field.read node record = .ok middle ∧
              decodeNamed (nodeUnder rest) fields middle = .ok changed) := by
      intro field hfield
      have hname : field.name = key.text := by simpa using List.find?_some hfield
      have hmem := List.mem_of_find?_eq_some hfield
      refine ⟨hname, hmem, ?_⟩
      rw [← bind_eq_ok_iff, ← toOption_eq_some_iff, ← toOption_eq_some_iff,
        toOption_decodeNamed_cons h hmem hname hkey]
    rw [forall_known_cons hkey]
    constructor
    · intro hread
      obtain ⟨field, middle, hfield, hmiddle, hrest⟩ := decodeEntries_cons_eq_ok hread
      obtain ⟨hname, hmem, hiff⟩ := hmoved field hfield
      obtain ⟨hknown, hnamed⟩ := (ih hkeys).mp hrest
      exact ⟨⟨hname ▸ List.mem_map_of_mem hmem, hknown⟩, hiff.mpr ⟨middle, hmiddle, hnamed⟩⟩
    · rintro ⟨⟨hmem, hknown⟩, hnamed⟩
      obtain ⟨field, hfield⟩ := exists_find?_of_mem_names hmem
      obtain ⟨middle, hmiddle, hrest⟩ := (hmoved field hfield).2.2.mp hnamed
      rw [decodeEntries_cons_of_read hfield hmiddle]
      exact (ih hkeys).mpr ⟨hknown, hrest⟩

/-- **An array** is read field by field. -/
theorem decodeItems_eq_decodeNamed (hnames : (fields.map Field.name).Nodup) (items : List Node)
    (record : ρ) :
    decodeItems fields items record =
      decodeNamed (fun text => ((fields.map Field.name).zip items).lookup text) fields record := by
  induction fields generalizing items record with
  | nil => rfl
  | cons field fields ih =>
    cases items with
    | nil =>
      rw [List.zip_nil_right]
      exact (decodeNamed_none _ record).symm
    | cons node rest =>
      obtain ⟨hfresh, hnames⟩ := List.nodup_cons.mp hnames
      have hothers : ∀ other ∈ fields,
          ((field.name, node) :: (fields.map Field.name).zip rest).lookup other.name =
            ((fields.map Field.name).zip rest).lookup other.name := fun other hother => by
        have hne : other.name ≠ field.name := fun heq => hfresh (heq ▸ List.mem_map_of_mem hother)
        rw [List.lookup_cons, beq_false_of_ne hne]
      have hafter : ∀ middle, decodeItems fields rest middle =
          decodeNamed
            (fun text => ((field.name, node) :: (fields.map Field.name).zip rest).lookup text)
            fields middle := fun middle => by
        rw [ih hnames]
        exact (decodeNamed_congr hothers middle).symm
      simp only [decodeItems, decodeNamed, List.map_cons, List.zip_cons_cons, List.lookup_cons_self,
        Field.readFound, hafter]

end Order

section Records

variable {ρ : Type} {names : List String} {node item : Node} {find : String → Option Node}
    {text : String}

/-- What a value has for the fields of a record: what a table has under their names, or the
items of an array in the order of the fields. -/
def Node.offers (names : List String) : Node → Option (String → Option Node)
  | .table _ entries => some (nodeUnder entries)
  | .array _ items => some fun text => (names.zip items).lookup text
  | _ => none

/-- What a tree has for the fields of a record. -/
def Tree.offers (names : List String) : Tree → Option (String → Option Tree)
  | .table under => some under
  | .array items => some fun text => (names.zip items).lookup text
  | _ => none

theorem lookup_zip_map {α β : Type} (f : α → β) (names : List String) (items : List α)
    (text : String) :
    (names.zip (items.map f)).lookup text = ((names.zip items).lookup text).map f := by
  induction names generalizing items with
  | nil => rfl
  | cons name names ih =>
    cases items with
    | nil => rfl
    | cons item rest =>
      simp only [List.map_cons, List.zip_cons_cons, List.lookup_cons]
      cases text == name with
      | true => rfl
      | false => exact ih rest

/-- An item that is found under a name is one of the items, and the name is one of the names. -/
theorem mem_of_lookup_zip {α : Type} {items : List α} {item : α}
    (h : (names.zip items).lookup text = some item) : text ∈ names ∧ item ∈ items := by
  obtain ⟨before, after, hzip, -⟩ := List.lookup_eq_some_iff.mp h
  have hmem : (text, item) ∈ names.zip items := hzip ▸ List.mem_append_right _ List.mem_cons_self
  exact List.of_mem_zip hmem

/-- The tree of a value has the trees of what the value has. -/
theorem Node.offers_tree (names : List String) (node : Node) :
    node.tree.offers names =
      (node.offers names).map fun find text => (find text).map Node.tree := by
  cases node with
  | table span entries =>
    refine congrArg some (funext fun text => ?_)
    exact Node.treeUnder_eq_map entries text
  | array span items =>
    refine congrArg some (funext fun text => ?_)
    rw [Node.trees_eq_map, lookup_zip_map]
  | _ => rfl

/-- What a value without repetitions has for fields is without repetitions. -/
theorem Node.Distinct.of_offers (h : node.Distinct) (hfind : node.offers names = some find)
    (hitem : find text = some item) : item.Distinct := by
  cases h with
  | table span hkeys hinside =>
    obtain rfl := Option.some.inj hfind
    obtain ⟨entry, hentry, -, rfl⟩ := exists_mem_of_nodeUnder hitem
    exact hinside entry hentry
  | array span hinside =>
    obtain rfl := Option.some.inj hfind
    exact hinside item (mem_of_lookup_zip hitem).2
  | _ => cases hfind

/-- **A record** is read from what a value without repetitions has for its fields, if that is
for its fields alone. -/
theorem decodeRecord_eq_ok_iff {name : String} {fields : List (Field ρ)} {defaults record : ρ}
    (h : Orderless fields) (hnode : node.Distinct) :
    decodeRecord name fields defaults node = .ok record ↔
      ∃ find, node.offers (fields.map Field.name) = some find ∧
        (∀ text item, find text = some item → text ∈ fields.map Field.name) ∧
          decodeNamed find fields defaults = .ok record := by
  cases hnode with
  | table span hkeys _ =>
    rw [decodeRecord, locate_eq_ok_iff, decodeEntries_eq_ok_iff h hkeys]
    simp only [Node.offers, Option.some.injEq, exists_eq_left']
  | @array items span _ =>
    have hknown : ∀ text item, ((fields.map Field.name).zip items).lookup text = some item →
        text ∈ fields.map Field.name := fun text item hfound => (mem_of_lookup_zip hfound).1
    rw [decodeRecord, locate_eq_ok_iff, decodeItems_eq_decodeNamed h.names]
    simp only [Node.offers, Option.some.injEq, exists_eq_left', and_iff_right hknown]
  | _ =>
    constructor
    · intro hread
      cases hread
    · rintro ⟨find, hfind, -⟩
      cases hfind

end Records

section Parts

variable {ρ α β : Type} {field : Field ρ} {fields : List (Field ρ)} {record changed : ρ}
  {find : String → Option Node} {set : β → ρ → ρ} {means : Tree → β → Prop} {node : Node}

/-- What a key means for a part of a record: the default where the key is absent, and otherwise
what its value means. -/
def Given (means : Tree → β → Prop) (default : β) : Option Tree → β → Prop
  | none, part => part = default
  | some tree, part => means tree part

/-- A field that sets one part of a record to what a value means. -/
def Field.Reads (field : Field ρ) (set : β → ρ → ρ) (means : Tree → β → Prop)
    (node : Node) : Prop :=
  ∀ record changed, field.read node record = .ok changed ↔
    ∃ part, means node.tree part ∧ changed = set part record

/-- A field that sets a part to what is made of its value. -/
theorem Field.reads_of_decode {name : String} {decode : Node → Decoded α} (make : α → β)
    (set : β → ρ → ρ) (means : Tree → β → Prop)
    (h : ∀ part, (∃ a, decode node = .ok a ∧ part = make a) ↔ means node.tree part) :
    Field.Reads ⟨name, fun node record => decode node >>=
      fun a => pure (set (make a) record)⟩ set means node := by
  intro record changed
  rw [bind_eq_ok_iff]
  constructor
  · rintro ⟨a, ha, hchanged⟩
    exact ⟨make a, (h _).mp ⟨a, ha, rfl⟩, (Except.ok.inj hchanged).symm⟩
  · rintro ⟨part, hpart, rfl⟩
    obtain ⟨a, ha, rfl⟩ := (h part).mpr hpart
    exact ⟨a, ha, rfl⟩

/-- A field that sets a part to its value. -/
theorem Field.reads_of_decode_self {name : String} {decode : Node → Decoded β} (set : β → ρ → ρ)
    (means : Tree → β → Prop) (h : ∀ part, decode node = .ok part ↔ means node.tree part) :
    Field.Reads ⟨name, fun node record => decode node >>=
      fun part => pure (set part record)⟩ set means node :=
  Field.reads_of_decode id set means fun part => by simp only [id, exists_eq_right', h]

/-- **One field**: its part becomes what its own key means, and the other fields go on from
there. -/
theorem decodeNamed_cons_eq_ok_iff {R : β → Prop} (old : β)
    (hreads : ∀ node, find field.name = some node → field.Reads set means node)
    (hold : set old record = record)
    (hrest : ∀ part, decodeNamed find fields (set part record) = .ok changed ↔ R part) :
    decodeNamed find (field :: fields) record = .ok changed ↔
      ∃ part, Given means old ((find field.name).map Node.tree) part ∧ R part := by
  rw [decodeNamed, bind_eq_ok_iff]
  cases hfound : find field.name with
  | none =>
    constructor
    · rintro ⟨middle, hmiddle, hread⟩
      obtain rfl := Except.ok.inj hmiddle
      exact ⟨old, rfl, (hrest old).mp (hold.symm ▸ hread)⟩
    · rintro ⟨part, rfl, hpart⟩
      exact ⟨record, rfl, hold ▸ (hrest part).mpr hpart⟩
  | some node =>
    constructor
    · rintro ⟨middle, hmiddle, hread⟩
      obtain ⟨part, hpart, rfl⟩ := (hreads node hfound record middle).mp hmiddle
      exact ⟨part, hpart, (hrest part).mp hread⟩
    · rintro ⟨part, hpart, hread⟩
      exact ⟨set part record, (hreads node hfound record _).mpr ⟨part, hpart, rfl⟩,
        (hrest part).mpr hread⟩

end Parts

end EngineFuzz.Toml
