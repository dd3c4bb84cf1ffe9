import EngineFuzz.Config
import EngineFuzz.Proofs.DocumentPlaces
import Mathlib.Algebra.Group.Nat.Defs
/-!
# What a configuration takes from a document

Places appear in faults alone.  Whether a value fits, and what is made of it, is the same when
its places are forgotten, and so a configuration is the same for all documents that differ in
places only.

The keys of a configuration do not meddle with each other.  The seed is set by its own key and
by no other, so it does not matter for the rest of a configuration whether that key is there,
and it is set if the key is.

* `Toml.placeless_decodeRecord` — records are read without looking at places;
* `Config.toOption_ofNode_unplaced` — and so are configurations;
* `Config.isSome_seed_of_decodeEntries` — the seed is set if there is a key for it;
* `Config.decodeEntries_withSeed` — what other keys make of a configuration that has a seed.
-/

namespace EngineFuzz

namespace Toml

section Placeless

variable {α β ρ : Type}

/-- A value that was read is all that is left without faults. -/
theorem toOption_eq_some_iff {decoded : Decoded α} {a : α} :
    decoded.toOption = some a ↔ decoded = .ok a := by
  cases decoded <;> simp [Except.toOption]

@[simp] theorem toOption_locate (span : Option Span) (decoded : Decoded α) :
    (locate span decoded).toOption = decoded.toOption := by
  cases decoded <;> rfl

theorem locate_eq_ok_iff {span : Option Span} {decoded : Decoded α} {a : α} :
    locate span decoded = .ok a ↔ decoded = .ok a := by
  cases decoded <;> simp [locate]

/-- What comes after a value that was read comes after it without its faults too. -/
theorem toOption_bind (decoded : Decoded α) (next : α → Decoded β) :
    (decoded >>= next).toOption = decoded.toOption.bind fun a => (next a).toOption := by
  cases decoded <;> rfl

/-- What comes after a value that was read succeeds only if there is one. -/
theorem bind_eq_ok_iff {decoded : Decoded α} {next : α → Decoded β} {b : β} :
    decoded >>= next = .ok b ↔ ∃ a, decoded = .ok a ∧ next a = .ok b := by
  cases decoded with
  | error fault => simp [Bind.bind, Except.bind]
  | ok a => simp [Bind.bind, Except.bind]

/-- A reading of values that looks at places in faults alone. -/
def Placeless (read : Node → Decoded α) : Prop :=
  ∀ node, (read node.unplaced).toOption = (read node).toOption

/-- What is made of a value that was read. -/
theorem Placeless.bind {read : Node → Decoded α} (h : Placeless read) (next : α → Decoded β) :
    Placeless fun node => read node >>= next := fun node => by
  rw [toOption_bind, toOption_bind, h node]

theorem placeless_decodeString (expected : String) : Placeless (decodeString expected) := by
  intro node
  cases node <;> rfl

theorem placeless_decodeBool : Placeless decodeBool := by
  intro node
  cases node <;> rfl

theorem placeless_decodeUnsigned (expected : String) : Placeless (decodeUnsigned expected) := by
  intro node
  cases node with
  | integer span value =>
    simp only [Node.unplaced, decodeUnsigned]
    split <;> rfl
  | _ => rfl

/-- An integer that is not negative is the number that it stands for without a sign. -/
theorem toUInt64_eq_iff {value : Int64} {number : UInt64} :
    ¬value < 0 ∧ value.toUInt64 = number ↔ value.toInt = number.toNat := by
  have hword : value.toUInt64.toNat = value.toBitVec.toNat := rfl
  have hsigned : value.toInt = value.toBitVec.toInt := rfl
  have hcases := BitVec.toInt_eq_toNat_cond value.toBitVec
  have hlt := value.toBitVec.isLt
  rw [Int64.lt_iff_toInt_lt, Int64.toInt_zero, ← UInt64.toNat_inj, hword]
  have hnumber := number.toNat_lt
  split at hcases <;> omega

/-- An integer of a document is less than half of what 64 bits without a sign can hold. -/
theorem toNat_lt_of_decodeUnsigned {expected : String} {node : Node} {number : UInt64}
    (h : decodeUnsigned expected node = .ok number) : number.toNat < 2 ^ 63 := by
  cases node with
  | integer span value =>
    simp only [decodeUnsigned] at h
    split at h
    · cases h
    · rename_i hvalue
      have hsame := toUInt64_eq_iff.mp ⟨hvalue, Except.ok.inj h⟩
      have hlt := value.toInt_lt
      omega
  | _ => cases h

/-- A lesser number stands for itself. -/
theorem toUInt64_ofNat_toNat {number : UInt64} (h : number.toNat < 2 ^ 63) :
    ¬Int64.ofNat number.toNat < 0 ∧ (Int64.ofNat number.toNat).toUInt64 = number :=
  toUInt64_eq_iff.mpr (Int64.toInt_ofNat_of_lt h)

theorem placeless_decodeList {decode : Node → Decoded α} (h : Placeless decode) :
    Placeless (decodeList decode) := by
  intro node
  cases node with
  | array span items =>
    simp only [Node.unplaced, decodeList, toOption_locate, Node.unplacedItems_eq_map]
    induction items with
    | nil => rfl
    | cons item rest ih =>
      simp only [List.map_cons, List.mapM_cons, toOption_bind, h item, ih]
  | _ => rfl

theorem placeless_decodePair : Placeless decodePair := by
  intro node
  cases node with
  | array span items =>
    match items with
    | [] => rfl
    | [first] =>
      simp only [Node.unplaced, Node.unplacedItems, decodePair, toOption_locate, toOption_bind,
        placeless_decodeUnsigned "usize" first]
      rfl
    | first :: second :: rest =>
      simp only [Node.unplaced, Node.unplacedItems, decodePair, toOption_locate, toOption_bind,
        placeless_decodeUnsigned "usize" first, placeless_decodeUnsigned "usize" second]
  | _ => rfl

theorem placeless_decodeRange : Placeless decodeRange := placeless_decodePair.bind _

/-- Both sizes of a pair are integers of the document. -/
theorem toNat_lt_of_decodePair {node : Node} {min max : UInt64}
    (h : decodePair node = .ok (min, max)) : min.toNat < 2 ^ 63 ∧ max.toNat < 2 ^ 63 := by
  cases node with
  | array span items =>
    match items with
    | [] => cases h
    | [first] =>
      obtain ⟨_, -, hshort⟩ := bind_eq_ok_iff.mp (locate_eq_ok_iff.mp h)
      cases hshort
    | first :: second :: rest =>
      obtain ⟨least, hleast, h⟩ := bind_eq_ok_iff.mp (locate_eq_ok_iff.mp h)
      obtain ⟨greatest, hgreatest, h⟩ := bind_eq_ok_iff.mp h
      obtain ⟨rfl, rfl⟩ := Prod.mk.inj (Except.ok.inj h)
      exact ⟨toNat_lt_of_decodeUnsigned hleast, toNat_lt_of_decodeUnsigned hgreatest⟩
  | _ => cases h

/-- A range is read from a pair that is its ends. -/
theorem decodeRange_eq_ok_iff_pair {node : Node} {range : SizeRange} :
    decodeRange node = .ok range ↔ decodePair node = .ok (range.min, range.max) := by
  rw [decodeRange, bind_eq_ok_iff]
  constructor
  · rintro ⟨⟨min, max⟩, hpair, hrange⟩
    simp only at hrange
    split at hrange
    · rename_i made hmade
      obtain rfl := Except.ok.inj hrange
      obtain ⟨rfl, rfl⟩ := SizeRange.named_eq_ok_iff_ends.mp hmade
      exact hpair
    · cases hrange
  · intro hpair
    have hnew : SizeRange.new range.min range.max = .ok range :=
      SizeRange.named_eq_ok_iff_ends.mpr ⟨rfl, rfl⟩
    refine ⟨_, hpair, ?_⟩
    simp only [hnew]
    rfl

/-- The range of a document ends with an integer of the document. -/
theorem max_lt_of_decodeRange {node : Node} {range : SizeRange} (h : decodeRange node = .ok range) :
    range.max.toNat < 2 ^ 63 :=
  (toNat_lt_of_decodePair (decodeRange_eq_ok_iff_pair.mp h)).2

/-- Fields that look at places in faults alone. -/
def PlacelessFields (fields : List (Field ρ)) : Prop :=
  ∀ field ∈ fields, ∀ record, Placeless (field.read · record)

theorem toOption_decodeEntries_unplaced {fields : List (Field ρ)} (h : PlacelessFields fields)
    (entries : List (Key × Node)) (record : ρ) :
    (decodeEntries fields (Node.unplacedEntries entries) record).toOption =
      (decodeEntries fields entries record).toOption := by
  induction entries generalizing record with
  | nil => rfl
  | cons entry rest ih =>
    obtain ⟨key, node⟩ := entry
    cases hfield : fields.find? (·.name = key.text) with
    | none =>
      have hunplaced : fields.find? (·.name = key.unplaced.text) = none := hfield
      simp only [Node.unplacedEntries, decodeEntries, hunplaced, hfield]
      rfl
    | some field =>
      have hunplaced : fields.find? (·.name = key.unplaced.text) = some field := hfield
      have hread : (field.read node.unplaced record).toOption = (field.read node record).toOption :=
        h field (List.mem_of_find?_eq_some hfield) record node
      simp only [Node.unplacedEntries, decodeEntries, hunplaced, hfield, toOption_bind,
        toOption_locate, hread, ih]

theorem toOption_decodeItems_unplaced {fields : List (Field ρ)} (h : PlacelessFields fields)
    (items : List Node) (record : ρ) :
    (decodeItems fields (Node.unplacedItems items) record).toOption =
      (decodeItems fields items record).toOption := by
  induction items generalizing fields record with
  | nil => cases fields <;> rfl
  | cons node rest ih =>
    cases fields with
    | nil => rfl
    | cons field fields =>
      obtain ⟨hfield, hfields⟩ := List.forall_mem_cons.mp h
      simp only [Node.unplacedItems, decodeItems, toOption_bind, hfield record node, ih hfields]

/-- Entries that are read begin with a key that names a field. -/
theorem decodeEntries_cons_eq_ok {fields : List (Field ρ)} {key : Key} {node : Node}
    {rest : List (Key × Node)} {record changed : ρ}
    (h : decodeEntries fields ((key, node) :: rest) record = .ok changed) :
    ∃ field middle, fields.find? (·.name = key.text) = some field ∧
      field.read node record = .ok middle ∧ decodeEntries fields rest middle = .ok changed := by
  cases hfield : fields.find? (·.name = key.text) with
  | none =>
    simp only [decodeEntries, hfield] at h
    cases h
  | some field =>
    simp only [decodeEntries, hfield] at h
    obtain ⟨middle, hlocated, hrest⟩ := bind_eq_ok_iff.mp h
    exact ⟨field, middle, rfl, locate_eq_ok_iff.mp hlocated, hrest⟩

/-- Entries behind one that names a field and fits it. -/
theorem decodeEntries_cons_of_read {fields : List (Field ρ)} {field : Field ρ}
    {key : Key} {node : Node} {rest : List (Key × Node)} {record middle : ρ}
    (hfield : fields.find? (·.name = key.text) = some field)
    (hread : field.read node record = .ok middle) :
    decodeEntries fields ((key, node) :: rest) record = decodeEntries fields rest middle := by
  simp only [decodeEntries, hfield, hread]
  rfl

section Keeping

variable {P : ρ → Prop} {fields : List (Field ρ)} {record changed : ρ}

/-- What every field keeps, the entries of a table keep. -/
theorem decodeEntries_keeps {entries : List (Key × Node)}
    (h : ∀ field ∈ fields, ∀ node record changed, P record → field.read node record = .ok changed →
      P changed)
    (hrecord : P record) (hread : decodeEntries fields entries record = .ok changed) :
    P changed := by
  induction entries generalizing record with
  | nil =>
    obtain rfl := Except.ok.inj hread
    exact hrecord
  | cons entry rest ih =>
    obtain ⟨key, node⟩ := entry
    obtain ⟨field, middle, hfield, hmiddle, hrest⟩ := decodeEntries_cons_eq_ok hread
    exact ih (h field (List.mem_of_find?_eq_some hfield) node record middle hrecord hmiddle) hrest

/-- What every field keeps, the items of an array keep. -/
theorem decodeItems_keeps {items : List Node}
    (h : ∀ field ∈ fields, ∀ node record changed, P record → field.read node record = .ok changed →
      P changed)
    (hrecord : P record) (hread : decodeItems fields items record = .ok changed) : P changed := by
  induction items generalizing fields record with
  | nil =>
    cases fields <;> exact Except.ok.inj hread ▸ hrecord
  | cons node rest ih =>
    cases fields with
    | nil => exact Except.ok.inj hread ▸ hrecord
    | cons field fields =>
      obtain ⟨middle, hmiddle, hrest⟩ := bind_eq_ok_iff.mp hread
      obtain ⟨hfield, hfields⟩ := List.forall_mem_cons.mp h
      exact ih hfields (hfield node record middle hrecord hmiddle) hrest

/-- What every field keeps and the defaults have, a record has. -/
theorem decodeRecord_keeps {name : String} {defaults : ρ} {node : Node}
    (h : ∀ field ∈ fields, ∀ node record changed, P record → field.read node record = .ok changed →
      P changed)
    (hdefaults : P defaults) (hread : decodeRecord name fields defaults node = .ok record) :
    P record := by
  cases node with
  | table span entries => exact decodeEntries_keeps h hdefaults (locate_eq_ok_iff.mp hread)
  | array span items => exact decodeItems_keeps h hdefaults (locate_eq_ok_iff.mp hread)
  | _ => cases hread

end Keeping

/-- **Records** are read without looking at places, but for faults. -/
theorem placeless_decodeRecord {fields : List (Field ρ)} (h : PlacelessFields fields)
    (name : String) (defaults : ρ) : Placeless (decodeRecord name fields defaults) := by
  intro node
  cases node with
  | table span entries =>
    simp only [Node.unplaced, decodeRecord, toOption_locate, toOption_decodeEntries_unplaced h]
  | array span items =>
    simp only [Node.unplaced, decodeRecord, toOption_locate, toOption_decodeItems_unplaced h]
  | _ => rfl

end Placeless

end Toml

namespace Config

open Toml

section Fields

variable {field : Toml.Field Draft} {draft changed : Draft} {node : Node}
    {entries : List (Key × Node)}

/-- Fields that are read as a record whose fields are all read in one way. -/
theorem placelessFields_shape : PlacelessFields shapeFields := by
  intro field hfield record
  simp only [shapeFields, List.mem_cons, List.not_mem_nil, or_false] at hfield
  rcases hfield with rfl | rfl | rfl | rfl <;> exact placeless_decodeRange.bind _

theorem placelessFields_sampling : PlacelessFields samplingFields := by
  intro field hfield record
  obtain rfl := List.mem_singleton.mp hfield
  exact placeless_decodeBool.bind _

theorem placelessFields_engine : PlacelessFields engineFields := by
  intro field hfield record
  simp only [engineFields, List.mem_cons, List.not_mem_nil, or_false] at hfield
  rcases hfield with rfl | rfl
  · exact (placeless_decodeString _).bind _
  · exact (placeless_decodeList (placeless_decodeString _)).bind _

theorem placelessFields : PlacelessFields fields := by
  intro field hfield record
  simp only [fields, List.mem_cons, List.not_mem_nil, or_false] at hfield
  rcases hfield with rfl | rfl | rfl | rfl | rfl
  · exact (placeless_decodeString _).bind _
  · exact (placeless_decodeUnsigned _).bind _
  · exact (placeless_decodeRecord placelessFields_shape _ _).bind _
  · exact (placeless_decodeRecord placelessFields_sampling _ _).bind _
  · exact (placeless_decodeRecord placelessFields_engine _ _).bind _

/-- **A configuration** does not depend on places. -/
theorem toOption_ofNode_unplaced (node : Node) :
    (ofNode node.unplaced).toOption = (ofNode node).toOption := by
  simp only [ofNode, toOption_bind,
    placeless_decodeRecord placelessFields "FuzzConfig" defaults node]
  congr 1
  funext draft
  cases draft.programPath <;> rfl

/-- A field that is read sets what is its own, and the seed is set by its own field alone. -/
theorem isSome_seed_of_read (hfield : field ∈ fields) (h : field.read node draft = .ok changed) :
    changed.seed.isSome = true ↔ draft.seed.isSome = true ∨ field.name = "seed" := by
  simp only [fields, List.mem_cons, List.not_mem_nil, or_false] at hfield
  rcases hfield with rfl | rfl | rfl | rfl | rfl <;>
    obtain ⟨found, -, hchanged⟩ := bind_eq_ok_iff.mp h <;>
    obtain rfl := Except.ok.inj hchanged <;>
    simp

/-- **The seed is set** if there is a key for it, or was before. -/
theorem isSome_seed_of_decodeEntries (h : decodeEntries fields entries draft = .ok changed) :
    changed.seed.isSome = true ↔ draft.seed.isSome = true ∨ "seed" ∈ entries.map (·.1.text) := by
  induction entries generalizing draft with
  | nil =>
    obtain rfl := Except.ok.inj h
    simp
  | cons entry rest ih =>
    obtain ⟨key, node⟩ := entry
    obtain ⟨field, middle, hfield, hread, hrest⟩ := decodeEntries_cons_eq_ok h
    have hname : field.name = key.text := by simpa using List.find?_some hfield
    rw [ih hrest, isSome_seed_of_read (List.mem_of_find?_eq_some hfield) hread, hname,
      List.map_cons, List.mem_cons, or_assoc, @eq_comm _ key.text]

/-- A field that is read keeps a seed that an integer of a document can give, or gives one. -/
theorem seed_lt_of_read (hfield : field ∈ fields) (h : field.read node draft = .ok changed)
    (hdraft : ∀ seed, draft.seed = some seed → seed.toNat < 2 ^ 63) (seed : UInt64)
    (hseed : changed.seed = some seed) : seed.toNat < 2 ^ 63 := by
  simp only [fields, List.mem_cons, List.not_mem_nil, or_false] at hfield
  rcases hfield with rfl | rfl | rfl | rfl | rfl <;>
    obtain ⟨found, hfound, hchanged⟩ := bind_eq_ok_iff.mp h <;>
    obtain rfl := Except.ok.inj hchanged
  case inr.inl =>
    obtain rfl := Option.some.inj hseed
    exact toNat_lt_of_decodeUnsigned hfound
  all_goals exact hdraft seed hseed

/-- **The seed of a configuration** is one that an integer of a document can give. -/
theorem seed_lt_of_decodeEntries (h : decodeEntries fields entries draft = .ok changed)
    (hdraft : ∀ seed, draft.seed = some seed → seed.toNat < 2 ^ 63) (seed : UInt64)
    (hseed : changed.seed = some seed) : seed.toNat < 2 ^ 63 :=
  decodeEntries_keeps (P := fun draft => ∀ seed, draft.seed = some seed → seed.toNat < 2 ^ 63)
    (fun _ hfield _ _ _ hbefore hread => seed_lt_of_read hfield hread hbefore) hdraft h seed hseed

/-- Other fields do not look at the seed. -/
theorem read_withSeed (hfield : field ∈ fields) (hname : field.name ≠ "seed") (seed : Option UInt64)
    (h : field.read node draft = .ok changed) :
    field.read node { draft with seed } = .ok { changed with seed } := by
  simp only [fields, List.mem_cons, List.not_mem_nil, or_false] at hfield
  rcases hfield with rfl | rfl | rfl | rfl | rfl
  case inr.inl => exact absurd rfl hname
  all_goals
    obtain ⟨found, hfound, hchanged⟩ := bind_eq_ok_iff.mp h
    obtain rfl := Except.ok.inj hchanged
    simp only [hfound]
    rfl

/-- **Other keys** do the same if a seed has been set. -/
theorem decodeEntries_withSeed (hkeys : "seed" ∉ entries.map (·.1.text)) (seed : Option UInt64)
    (h : decodeEntries fields entries draft = .ok changed) :
    decodeEntries fields entries { draft with seed } = .ok { changed with seed } := by
  induction entries generalizing draft with
  | nil =>
    obtain rfl := Except.ok.inj h
    rfl
  | cons entry rest ih =>
    obtain ⟨key, node⟩ := entry
    obtain ⟨field, middle, hfield, hread, hrest⟩ := decodeEntries_cons_eq_ok h
    have hname : field.name = key.text := by simpa using List.find?_some hfield
    rw [List.map_cons] at hkeys
    have hother : field.name ≠ "seed" := hname ▸ (List.ne_of_not_mem_cons hkeys).symm
    have hread' := read_withSeed (List.mem_of_find?_eq_some hfield) hother seed hread
    rw [decodeEntries_cons_of_read hfield hread']
    exact ih (List.not_mem_of_not_mem_cons hkeys) hrest

/-- A value is a configuration if it is the record of one that names a program. -/
theorem ofNode_eq_ok_iff_exists_draft {config : Config} :
    ofNode node = .ok config ↔
      ∃ draft programPath, decodeRecord "FuzzConfig" fields defaults node = .ok draft ∧
        draft.programPath = some programPath ∧ config = { draft with programPath } := by
  rw [ofNode, bind_eq_ok_iff]
  constructor
  · rintro ⟨draft, hrecord, hconfig⟩
    cases hprogram : draft.programPath with
    | none =>
      rw [hprogram] at hconfig
      cases hconfig
    | some programPath =>
      rw [hprogram] at hconfig
      exact ⟨draft, programPath, hrecord, hprogram, (Except.ok.inj hconfig).symm⟩
  · rintro ⟨draft, programPath, hrecord, hprogram, rfl⟩
    refine ⟨draft, hrecord, ?_⟩
    rw [hprogram]
    rfl

/-- A table is a configuration if its entries name a program and all fit. -/
theorem ofNode_table_eq_ok_iff {span : Option Span} {config : Config} :
    ofNode (.table span entries) = .ok config ↔
      ∃ draft programPath, decodeEntries fields entries defaults = .ok draft ∧
        draft.programPath = some programPath ∧ config = { draft with programPath } := by
  simp only [ofNode_eq_ok_iff_exists_draft, decodeRecord, locate_eq_ok_iff]

/-- A configuration has a seed if there is a key for it. -/
theorem mem_keys_iff_of_ofNode {span : Option Span} {config : Config}
    (h : ofNode (.table span entries) = .ok config) :
    "seed" ∈ entries.map (·.1.text) ↔ config.seed.isSome = true := by
  obtain ⟨draft, programPath, hentries, -, rfl⟩ := ofNode_table_eq_ok_iff.mp h
  rw [isSome_seed_of_decodeEntries hentries]
  simp [defaults]

/-- The seed of a configuration is less than half of what a seed can be. -/
theorem seed_lt_of_ofNode {span : Option Span} {config : Config} {seed : UInt64}
    (h : ofNode (.table span entries) = .ok config) (hseed : config.seed = some seed) :
    seed.toNat < 2 ^ 63 := by
  obtain ⟨draft, programPath, hentries, -, rfl⟩ := ofNode_table_eq_ok_iff.mp h
  exact seed_lt_of_decodeEntries hentries (fun given hgiven => by cases hgiven) seed hseed

/-- The seed's key names a field that sets it. -/
theorem exists_field_of_seed {key : Key} (h : key.text = "seed") :
    ∃ field, fields.find? (·.name = key.text) = some field ∧ ∀ place value draft, ¬value < 0 →
      field.read (.integer place value) draft = .ok { draft with seed := some value.toUInt64 } := by
  refine ⟨_, by rw [h]; rfl, fun place value draft hvalue => ?_⟩
  simp only [decodeUnsigned, if_neg hvalue]
  rfl

/-- **A configuration with a key for the seed**, in front of the others. -/
theorem ofNode_cons_seed {span span' : Option Span} {config : Config} {key : Key} {place : Span}
    {value : Int64} (h : ofNode (.table span entries) = .ok config) (hseed : config.seed = none)
    (hkey : key.text = "seed") (hvalue : ¬value < 0) :
    ofNode (.table span' ((key, .integer place value) :: entries)) =
      .ok { config with seed := some value.toUInt64 } := by
  have hkeys : "seed" ∉ entries.map (·.1.text) := by
    rw [mem_keys_iff_of_ofNode h, hseed]
    exact Bool.false_ne_true
  obtain ⟨draft, programPath, hentries, hprogram, rfl⟩ := ofNode_table_eq_ok_iff.mp h
  refine ofNode_table_eq_ok_iff.mpr ⟨{ draft with seed := some value.toUInt64 }, programPath, ?_,
    hprogram, rfl⟩
  obtain ⟨field, hfield, hread⟩ := exists_field_of_seed hkey
  rw [decodeEntries_cons_of_read hfield (hread place value defaults hvalue)]
  exact decodeEntries_withSeed hkeys _ hentries

end Fields

end Config

end EngineFuzz
