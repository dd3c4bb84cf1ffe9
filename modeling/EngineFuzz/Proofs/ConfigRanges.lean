import EngineFuzz.Proofs.ConfigMeaning
import EngineFuzz.Proofs.SeedLine
/-!
# Ranges in a document

A range is present in a document if its key stands in some table of it, whether that lies in
tables or in arrays, or if the shape of programs is an array that is long enough to have an item
in the place of the range.  The document is then a configuration only if the value is an array
that begins with two integers in order, which are the ends of the range.  With any other value
the document is refused, and so it is if the key stands anywhere but in the shape of programs.

Nothing looks at what follows the two integers, or at the items of an array past the last field
of the record that it stands for.  So a key that stands there is not that of a range.

* `Toml.Tree.Stands` — where a value stands in a tree;
* `Config.Overlooked` — the places of a document that nothing looks at;
* `Config.RangeKey`, `Config.RangeKey.IsPresent` — the ranges, and where a document has them;
* `Config.Means.isRange`, `Config.Means.path_eq` — what a configuration has there;
* `Config.parse_of_range` — a document that has a range.
-/

namespace EngineFuzz

namespace Toml

section Paths

/-- One step from a value into it: to what has a key in a table, or a place in an array. -/
inductive Step where
  | key (name : String)
  | item (place : Nat)
deriving DecidableEq, Repr

variable {tree value : Tree} {names : List String} {name : String} {path : List Step} {step : Step}
  {find : String → Option Tree}

/-- A value stands in a tree, at the end of a path. -/
inductive Tree.Stands (value : Tree) : List Step → Tree → Prop
  | here : Stands value [] value
  | inside {name : String} {path : List Step} {under : String → Option Tree} {inner : Tree}
      (hname : under name = some inner) (h : Stands value path inner) :
      Stands value (.key name :: path) (.table under)
  | among {place : Nat} {path : List Step} {items : List Tree} {inner : Tree}
      (hplace : items[place]? = some inner) (h : Stands value path inner) :
      Stands value (.item place :: path) (.array items)

/-- A value that nothing can stand in. -/
def Tree.IsScalar (tree : Tree) : Prop :=
  (∀ under, tree ≠ .table under) ∧ ∀ items, tree ≠ .array items

theorem Tree.IsScalar.not_stands (h : tree.IsScalar) : ¬value.Stands (step :: path) tree := by
  intro hstands
  cases hstands with
  | inside => exact h.1 _ rfl
  | among => exact h.2 _ rfl

/-- In a scalar there is no path that ends in a key. -/
theorem Tree.IsScalar.not_stands_key (h : tree.IsScalar) :
    ¬value.Stands (path ++ [.key name]) tree := by
  cases path with
  | nil => exact h.not_stands
  | cons step path => exact h.not_stands

theorem Tree.IsUnsigned.isScalar {number : UInt64} (h : tree.IsUnsigned number) :
    tree.IsScalar := by
  obtain ⟨_, rfl, -⟩ := h
  exact ⟨fun _ => nofun, fun _ => nofun⟩

theorem Tree.IsText.isScalar {text : String} (h : tree.IsText text) : tree.IsScalar := by
  obtain rfl : tree = .string text := h
  exact ⟨fun _ => nofun, fun _ => nofun⟩

/-- A table can stand in a range only behind its ends. -/
theorem Tree.IsRange.exists_item {range : SizeRange} (h : tree.IsRange range)
    (hstands : value.Stands (path ++ [.key name]) tree) :
    ∃ place rest, 2 ≤ place ∧ path = .item place :: rest := by
  obtain ⟨min, max, more, rfl, hmin, hmax⟩ := h
  cases path with
  | nil => cases hstands
  | cons step path =>
    cases hstands with
    | @among place _ _ inner hplace h =>
      match place with
      | 0 =>
        obtain rfl : min = inner := Option.some.inj hplace
        exact absurd h hmin.isScalar.not_stands_key
      | 1 =>
        obtain rfl : max = inner := Option.some.inj hplace
        exact absurd h hmax.isScalar.not_stands_key
      | place + 2 => exact ⟨place + 2, path, by omega, rfl⟩

/-- No table stands in an array of texts. -/
theorem Tree.IsTexts.not_stands_key {texts : List String} (h : tree.IsTexts texts) :
    ¬value.Stands (path ++ [.key name]) tree := by
  obtain rfl : tree = .array (texts.map .string) := h
  intro hstands
  cases path with
  | nil => cases hstands
  | cons step path =>
    cases hstands with
    | @among place _ _ inner hplace h =>
      obtain ⟨text, -, rfl⟩ := List.mem_map.mp (List.mem_of_getElem? hplace)
      exact absurd h (Tree.IsText.isScalar rfl).not_stands_key

/-- An item is found under the name that has its place. -/
theorem lookup_zip_of_getElem? {item : Tree} {items : List Tree} {place : Nat}
    (hnames : names.Nodup) (hname : names[place]? = some name) (hitem : items[place]? = some item) :
    (names.zip items).lookup name = some item := by
  induction names generalizing items place with
  | nil => cases hname
  | cons first names ih =>
    obtain ⟨hfresh, hnames⟩ := List.nodup_cons.mp hnames
    cases items with
    | nil => cases hitem
    | cons head items =>
      rw [List.zip_cons_cons]
      cases place with
      | zero =>
        obtain rfl : first = name := Option.some.inj hname
        obtain rfl : head = item := Option.some.inj hitem
        exact List.lookup_cons_self
      | succ place =>
        rw [List.getElem?_cons_succ] at hname hitem
        have hne : name ≠ first := fun heq => hfresh (heq ▸ List.mem_of_getElem? hname)
        rw [List.lookup_cons, beq_eq_false_iff_ne.mpr hne]
        exact ih hnames hname hitem

/-- What stands in a record stands in one of its fields, which is reached by its name or by its
place, or behind the last one. -/
theorem Tree.Holds.stands_cases (hholds : tree.Holds names find) (hnames : names.Nodup)
    (h : value.Stands (step :: path) tree) :
    (∃ name inner, name ∈ names ∧ find name = some inner ∧ value.Stands path inner) ∨
    ∃ place, names.length ≤ place ∧ step = .item place := by
  obtain ⟨hoffers, hknown⟩ := hholds
  cases h with
  | @inside name _ under inner hname h =>
    obtain rfl : under = find := Option.some.inj hoffers
    exact Or.inl ⟨name, inner, hknown name (Option.isSome_of_eq_some hname), hname, h⟩
  | @among place _ items inner hplace h =>
    obtain rfl : (fun text => (names.zip items).lookup text) = find := Option.some.inj hoffers
    rcases Nat.lt_or_ge place names.length with hlt | hge
    · have hname : names[place]? = some names[place] := List.getElem?_eq_getElem hlt
      exact Or.inl ⟨names[place], inner, List.getElem_mem hlt,
        lookup_zip_of_getElem? hnames hname hplace, h⟩
    · exact Or.inr ⟨place, hge, rfl⟩

/-- The last key of a path in a record is one of its fields. -/
theorem Tree.Holds.mem_names (hholds : tree.Holds names find) (h : value.Stands [.key name] tree) :
    name ∈ names := by
  cases h with
  | @inside _ _ under inner hname h =>
    obtain rfl : under = find := Option.some.inj hholds.1
    exact hholds.2 name (Option.isSome_of_eq_some hname)

/-- A key that is there means what its value means. -/
theorem Given.of_eq_some {β : Type} {means : Tree → β → Prop} {default part : β}
    {found : Option Tree}
    (h : Given means default found part) (hfound : found = some tree) : means tree part := by
  rw [hfound] at h
  exact h

end Paths

end Toml

namespace Config

open Toml

/-- The places of a document that nothing looks at: the items of an array past the last field of the
record, or past the ends of the range, that it stands for. -/
inductive Overlooked : List Step → Prop
  | pastShape {place : Nat} {path : List Step} (h : 4 ≤ place) :
    Overlooked (.key "generator" :: .item place :: path)
  | pastRange {field : Step} {place : Nat} {path : List Step} (h : 2 ≤ place) :
    Overlooked (.key "generator" :: field :: .item place :: path)
  | pastSampling {place : Nat} {path : List Step} (h : 1 ≤ place) :
    Overlooked (.key "inputs" :: .item place :: path)
  | pastEngine {place : Nat} {path : List Step} (h : 2 ≤ place) :
    Overlooked (.key "engine" :: .item place :: path)

/-- What one step leads to is looked at. -/
theorem not_overlooked_singleton (step : Step) : ¬Overlooked [step] := by
  intro h
  cases h

/-- The ranges of the shape of programs. -/
inductive RangeKey where
  | blocks
  | inputVars
  | constVars
  | literals
deriving DecidableEq, Repr

namespace RangeKey

/-- The key that a range has in a document. -/
def text : RangeKey → String
  | blocks => "blocks"
  | inputVars => "input_vars"
  | constVars => "const_vars"
  | literals => "literals"

/-- The place that a range has in an array. -/
def place : RangeKey → Nat
  | blocks => 0
  | inputVars => 1
  | constVars => 2
  | literals => 3

/-- The range itself. -/
def range (shape : ProgramShape) : RangeKey → SizeRange
  | blocks => shape.blocks
  | inputVars => shape.guardShape.inputVars
  | constVars => shape.guardShape.constVars
  | literals => shape.guardShape.literals

/-- Keys and places are those of the fields. -/
theorem getElem?_names (key : RangeKey) :
    (shapeFields.map Field.name)[key.place]? = some key.text := by
  cases key <;> rfl

/-- No other part of a configuration has a key like a range. -/
theorem text_notMem_names (key : RangeKey) :
    key.text ∉ ["program_path", "seed", "generator", "inputs", "engine"] ∧
      key.text ∉ ["randomize"] ∧ key.text ∉ ["command", "args"] := by
  cases key <;> decide

/-- A document has a value for a range: under its key, wherever that stands and is looked at, or
in its place in an array that is the shape of programs. -/
inductive IsPresent (key : RangeKey) (value : Tree) (tree : Tree) : Prop
  | underKey (path : List Step) (h : value.Stands (path ++ [.key key.text]) tree)
      (hseen : ¬Overlooked path)
  | inPlace (h : value.Stands [.key "generator", .item key.place] tree)

end RangeKey

section Presence

variable {key : RangeKey} {tree value : Tree} {shape : ProgramShape} {sampling : Sampling}
  {engine : Engine} {config : Config} {path : List Step} {find under : String → Option Tree}

/-- What a shape offers for a range is the range. -/
theorem MeansShape.isRange (h : MeansShape tree shape)
    (hoffers : tree.offers (shapeFields.map Field.name) = some find)
    (hfind : find key.text = some value) : value.IsRange (key.range shape) := by
  obtain ⟨find', ⟨hoffers', -⟩, hblocks, hinputVars, hconstVars, hliterals⟩ := h
  obtain rfl : find' = find := Option.some.inj (hoffers'.symm.trans hoffers)
  cases key with
  | blocks => exact hblocks.of_eq_some hfind
  | inputVars => exact hinputVars.of_eq_some hfind
  | constVars => exact hconstVars.of_eq_some hfind
  | literals => exact hliterals.of_eq_some hfind

/-- A key stands deeper in a shape only where nothing looks at it. -/
theorem MeansShape.path_cases {name : String} (h : MeansShape tree shape)
    (hstands : value.Stands (path ++ [.key name]) tree) :
    path = [] ∨ Overlooked (.key "generator" :: path) := by
  obtain ⟨find, hholds, hblocks, hinputVars, hconstVars, hliterals⟩ := h
  cases path with
  | nil => exact Or.inl rfl
  | cons step path =>
    refine Or.inr ?_
    rcases hholds.stands_cases (by decide) hstands with
      ⟨field, inner, hfield, hfind, hinner⟩ | ⟨place, hplace, rfl⟩
    · have hrange : ∃ range, inner.IsRange range := by
        simp only [List.mem_cons, List.not_mem_nil, or_false] at hfield
        rcases hfield with rfl | rfl | rfl | rfl
        · exact ⟨_, hblocks.of_eq_some hfind⟩
        · exact ⟨_, hinputVars.of_eq_some hfind⟩
        · exact ⟨_, hconstVars.of_eq_some hfind⟩
        · exact ⟨_, hliterals.of_eq_some hfind⟩
      obtain ⟨range, hrange⟩ := hrange
      obtain ⟨place, rest, hplace, rfl⟩ := hrange.exists_item hinner
      exact .pastRange hplace
    · exact .pastShape hplace

/-- The key of a range stands in what inputs are made of only where nothing looks at it. -/
theorem MeansSampling.overlooked (h : MeansSampling tree sampling)
    (hstands : value.Stands (path ++ [.key key.text]) tree) :
    Overlooked (.key "inputs" :: path) := by
  obtain ⟨find, hholds, hrandomize⟩ := h
  cases path with
  | nil => exact absurd (hholds.mem_names hstands) key.text_notMem_names.2.1
  | cons step path =>
    rcases hholds.stands_cases (by decide) hstands with
      ⟨field, inner, hfield, hfind, hinner⟩ | ⟨place, hplace, rfl⟩
    · obtain rfl := List.mem_singleton.mp hfield
      obtain ⟨randomize, rfl, -⟩ := hrandomize.of_eq_some hfind
      exact absurd hinner (Tree.IsScalar.not_stands_key ⟨fun _ => nofun, fun _ => nofun⟩)
    · exact .pastSampling hplace

/-- The key of a range stands in an engine only where nothing looks at it. -/
theorem MeansEngine.overlooked (h : MeansEngine tree engine)
    (hstands : value.Stands (path ++ [.key key.text]) tree) :
    Overlooked (.key "engine" :: path) := by
  obtain ⟨find, hholds, hcommand, hargs⟩ := h
  cases path with
  | nil => exact absurd (hholds.mem_names hstands) key.text_notMem_names.2.2
  | cons step path =>
    rcases hholds.stands_cases (by decide) hstands with
      ⟨field, inner, hfield, hfind, hinner⟩ | ⟨place, hplace, rfl⟩
    · simp only [List.mem_cons, List.not_mem_nil, or_false] at hfield
      rcases hfield with rfl | rfl
      · exact absurd hinner (hcommand.of_eq_some hfind).isScalar.not_stands_key
      · exact absurd hinner (hargs.of_eq_some hfind).not_stands_key
    · exact .pastEngine hplace

/-- **The key of a range** stands in the shape of programs and nowhere else that is looked at. -/
theorem Means.path_eq (h : Means (.table under) config)
    (hstands : value.Stands (path ++ [.key key.text]) (.table under)) (hseen : ¬Overlooked path) :
    path = [.key "generator"] := by
  obtain ⟨find, hholds, hprogram, hseed, hshape, hsampling, hengine⟩ := h
  cases path with
  | nil => exact absurd (hholds.mem_names hstands) key.text_notMem_names.1
  | cons step path =>
    cases hstands with
    | @inside name _ _ inner hname hinner =>
      obtain rfl : under = find := Option.some.inj hholds.1
      have hmem := hholds.2 name (Option.isSome_of_eq_some hname)
      simp only [List.mem_cons, List.not_mem_nil, or_false] at hmem
      rcases hmem with rfl | rfl | rfl | rfl | rfl
      · obtain ⟨_, htext, -⟩ := hprogram.of_eq_some hname
        exact absurd hinner (Tree.IsText.isScalar htext).not_stands_key
      · obtain ⟨_, hnumber, -⟩ := hseed.of_eq_some hname
        exact absurd hinner hnumber.isScalar.not_stands_key
      · rcases (hshape.of_eq_some hname).path_cases hinner with rfl | hoverlooked
        · rfl
        · exact absurd hoverlooked hseen
      · exact absurd ((hsampling.of_eq_some hname).overlooked hinner) hseen
      · exact absurd ((hengine.of_eq_some hname).overlooked hinner) hseen

/-- **The value of a range** that is present is the range. -/
theorem Means.isRange (h : Means (.table under) config)
    (hpresent : key.IsPresent value (.table under)) : value.IsRange (key.range config.shape) := by
  have hgenerator : ∀ {inner : Tree}, under "generator" = some inner →
      MeansShape inner config.shape := by
    obtain ⟨find, hholds, -, -, hshape, -, -⟩ := h
    obtain rfl : under = find := Option.some.inj hholds.1
    exact fun hfind => hshape.of_eq_some hfind
  cases hpresent with
  | underKey path hstands hseen =>
    obtain rfl := h.path_eq hstands hseen
    cases hstands with
    | inside hfind hstands =>
      cases hstands with
      | inside hname hvalue =>
        cases hvalue
        exact (hgenerator hfind).isRange rfl hname
  | inPlace hstands =>
    cases hstands with
    | inside hfind hstands =>
      cases hstands with
      | among hplace hvalue =>
        cases hvalue
        refine (hgenerator hfind).isRange rfl ?_
        exact lookup_zip_of_getElem? (by decide) key.getElem?_names hplace

end Presence

section Documents

variable {text : String} {node : Node} {key : RangeKey} {value : Tree}

/-- A text that is a document is a configuration, or one of its values does not fit. -/
theorem parse_ok_or_valueFault (h : Document.read text = .ok node) :
    (∃ config, parse text = .ok config) ∨ ∃ fault, parse text = .error (.valueFault fault) := by
  simp only [parse, h]
  cases ofNode node with
  | error fault => exact .inr ⟨fault, rfl⟩
  | ok config => exact .inl ⟨config, rfl⟩

/-- A document is a table. -/
theorem exists_tree_eq_table (h : Document.read text = .ok node) :
    ∃ under, node.tree = .table under := by
  obtain ⟨span, entries, rfl⟩ := exists_table_of_read h
  exact ⟨_, rfl⟩

/-- In a document that is a configuration the value of a range begins with the ends of the range. -/
theorem exists_bounds_of_parse {config : Config} (hread : Document.read text = .ok node)
    (hpresent : key.IsPresent value node.tree) (hparse : parse text = .ok config) :
    ∃ low high more, value = .array (.integer low :: .integer high :: more) ∧
      0 ≤ low.toInt ∧ low.toInt ≤ high.toInt ∧
      low.toInt = (key.range config.shape).min.toNat ∧
      high.toInt = (key.range config.shape).max.toNat := by
  have hmeans := (parse_eq_ok_iff_means hread).mp hparse
  obtain ⟨under, htable⟩ := exists_tree_eq_table hread
  rw [htable] at hmeans hpresent
  obtain ⟨_, _, more, rfl, ⟨low, rfl, hlow⟩, high, rfl, hhigh⟩ := hmeans.isRange hpresent
  have hordered := UInt64.le_iff_toNat_le.mp (key.range config.shape).ordered
  exact ⟨low, high, more, rfl, by omega, by omega, hlow, hhigh⟩

/-- **A document that has a range** is a configuration only if the value is an array that begins
with two integers, neither of them negative and the second one not below the first, which are
the ends of the range; and only if the key of the range stands in the shape of programs and
nowhere else that is looked at.  Otherwise a value of the document does not fit. -/
theorem parse_of_range (hread : Document.read text = .ok node)
    (hpresent : key.IsPresent value node.tree) :
    (∀ config, parse text = .ok config → ∃ low high more,
      value = .array (.integer low :: .integer high :: more) ∧
        0 ≤ low.toInt ∧ low.toInt ≤ high.toInt ∧
        low.toInt = (key.range config.shape).min.toNat ∧
        high.toInt = (key.range config.shape).max.toNat) ∧
    ((∀ low high more, value = .array (.integer low :: .integer high :: more) →
        low.toInt < 0 ∨ high.toInt < low.toInt) →
      ∃ fault, parse text = .error (.valueFault fault)) ∧
    ∀ path, value.Stands (path ++ [.key key.text]) node.tree → ¬Overlooked path →
      path ≠ [.key "generator"] → ∃ fault, parse text = .error (.valueFault fault) := by
  refine ⟨fun config hparse => exists_bounds_of_parse hread hpresent hparse, fun hvalue => ?_,
    fun path hstands hseen hpath => ?_⟩
  · refine (parse_ok_or_valueFault hread).resolve_left ?_
    rintro ⟨config, hparse⟩
    obtain ⟨low, high, more, htree, hlow, hhigh, -⟩ := exists_bounds_of_parse hread hpresent hparse
    have := hvalue low high more htree
    omega
  · refine (parse_ok_or_valueFault hread).resolve_left ?_
    rintro ⟨config, hparse⟩
    have hmeans := (parse_eq_ok_iff_means hread).mp hparse
    obtain ⟨under, htable⟩ := exists_tree_eq_table hread
    rw [htable] at hmeans hstands
    exact hpath (hmeans.path_eq hstands hseen)

/-- A range under its key; and a range in its place, whose ends are not in order. -/
theorem parse_of_range_layouts :
    (∃ config, parse "generator.blocks = [1, 2]\nprogram_path = 'p.js'" = .ok config ∧
      config.shape.blocks.min = 1 ∧ config.shape.blocks.max = 2) ∧
    ∃ fault, parse "generator = [[1, 2], [2, 1]]\nprogram_path = 'p.js'" =
      .error (.valueFault fault) := by
  constructor
  · obtain ⟨node, hnode, htree⟩ := exists_read_of_unplaced
      "generator.blocks = [1, 2]\nprogram_path = 'p.js'"
      (.table (some nowhere) [(⟨"generator", nowhere⟩, .table none
          [(⟨"blocks", nowhere⟩, .array nowhere [.integer nowhere 1, .integer nowhere 2])]),
        (⟨"program_path", nowhere⟩, .string nowhere "p.js")]) (by cbv)
    have hpresent : RangeKey.blocks.IsPresent (.array [.integer 1, .integer 2]) node.tree := by
      rw [htree]
      exact .underKey [.key "generator"] (.inside rfl (.inside rfl .here))
        (not_overlooked_singleton _)
    obtain ⟨config, hconfig⟩ : ∃ config,
        parse "generator.blocks = [1, 2]\nprogram_path = 'p.js'" = .ok config :=
      ⟨⟨.ofString "p.js", none, { defaultShape with blocks := ⟨1, 2, by decide⟩ }, .randomized,
        defaultEngine⟩, by decide +kernel⟩
    obtain ⟨low, high, more, hvalue, -, -, hlow, hhigh⟩ :=
      (parse_of_range hnode hpresent).1 config hconfig
    simp only [Tree.array.injEq, List.cons.injEq, Tree.integer.injEq] at hvalue
    obtain ⟨rfl, rfl, -⟩ := hvalue
    refine ⟨config, hconfig, ?_, ?_⟩
    · exact UInt64.toNat_inj.mp (Int.ofNat.inj hlow.symm)
    · exact UInt64.toNat_inj.mp (Int.ofNat.inj hhigh.symm)
  · obtain ⟨node, hnode, htree⟩ := exists_read_of_unplaced
      "generator = [[1, 2], [2, 1]]\nprogram_path = 'p.js'"
      (.table (some nowhere) [(⟨"generator", nowhere⟩, .array nowhere
          [.array nowhere [.integer nowhere 1, .integer nowhere 2],
            .array nowhere [.integer nowhere 2, .integer nowhere 1]]),
        (⟨"program_path", nowhere⟩, .string nowhere "p.js")]) (by cbv)
    have hpresent : RangeKey.inputVars.IsPresent (.array [.integer 2, .integer 1]) node.tree := by
      rw [htree]
      exact .inPlace (.inside rfl (.among rfl .here))
    refine (parse_of_range hnode hpresent).2.1 fun low high more hvalue => ?_
    simp only [Tree.array.injEq, List.cons.injEq, Tree.integer.injEq] at hvalue
    obtain ⟨rfl, rfl, -⟩ := hvalue
    decide

/-- A range of three integers, which is accepted for the range of the first two. -/
theorem parse_of_three_bounds :
    ∃ node, Document.read "program_path = 'p.js'\n[generator]\nblocks = [1, 2, 3]\n" = .ok node ∧
      RangeKey.blocks.IsPresent (.array [.integer 1, .integer 2, .integer 3]) node.tree ∧
      parse "program_path = 'p.js'\n[generator]\nblocks = [1, 2, 3]\n" =
        .ok ⟨.ofString "p.js", none, { defaultShape with blocks := ⟨1, 2, by decide⟩ }, .randomized,
          defaultEngine⟩ ∧
      ∀ low high, Tree.array [.integer 1, .integer 2, .integer 3] ≠
        .array [.integer low, .integer high] := by
  obtain ⟨node, hnode, htree⟩ := exists_read_of_unplaced
    "program_path = 'p.js'\n[generator]\nblocks = [1, 2, 3]\n"
    (.table (some nowhere) [(⟨"program_path", nowhere⟩, .string nowhere "p.js"),
      (⟨"generator", nowhere⟩, .table (some nowhere) [(⟨"blocks", nowhere⟩,
        .array nowhere [.integer nowhere 1, .integer nowhere 2, .integer nowhere 3])])]) (by cbv)
  refine ⟨node, hnode, ?_, by decide +kernel, fun low high hvalue => ?_⟩
  · rw [htree]
    exact .underKey [.key "generator"] (.inside rfl (.inside rfl .here))
        (not_overlooked_singleton _)
  · cases hvalue

end Documents

end Config

end EngineFuzz
