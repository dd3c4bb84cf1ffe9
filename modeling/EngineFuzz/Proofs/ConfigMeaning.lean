import EngineFuzz.Proofs.ReadingLimits
import EngineFuzz.Proofs.RecordOrder
import Mathlib
/-!
# What a configuration means

A configuration is said by the tree of its document.  Each part has a key of its own: it is the
default where the key is absent, and otherwise what stands under the key, whatever else the
document has and wherever it has it.  A document that has no program, a key that is not known,
or a value that does not fit is no configuration.

So documents that denote the same tree, whether their tables are written under headers, in
braces or by dotted keys, and in whatever order, are the same configuration or none at all.
Only which fault is reported of several may depend on the order.  The one thing about the
writing that matters is how deep values lie inside each other and how many keys are joined by
dots: the reader of configurations has a limit for both, and refuses what goes beyond it.

* `Toml.Tree.IsUnsigned`, `Toml.Tree.IsRange`, `Toml.Tree.IsTexts` — values that fit;
* `Config.MeansShape`, `Config.MeansSampling`, `Config.MeansEngine`, `Config.Means` — what a
  tree means;
* `Config.ofNode_eq_ok_iff` — a configuration is what the tree of its document means;
* `Config.parse_of_tree_eq`, `Config.parse_of_deep_layouts` — documents that denote the same
  tree, and two of which one is written too deep.
-/

namespace EngineFuzz

namespace Toml

section Leaves

variable {node : Node} {expected : String}

/-- A tree that is a number of 64 bits without a sign. -/
def Tree.IsUnsigned (tree : Tree) (number : UInt64) : Prop :=
  ∃ value, tree = .integer value ∧ value.toInt = number.toNat

/-- A tree whose first two items are the ends of a range. -/
def Tree.IsRange (tree : Tree) (range : SizeRange) : Prop :=
  ∃ min max more, tree = .array (min :: max :: more) ∧ min.IsUnsigned range.min ∧
    max.IsUnsigned range.max

/-- A tree that is a text. -/
def Tree.IsText (tree : Tree) (text : String) : Prop := tree = .string text

/-- A tree that is an array of texts. -/
def Tree.IsTexts (tree : Tree) (texts : List String) : Prop := tree = .array (texts.map .string)

theorem decodeString_eq_ok_iff {text : String} :
    decodeString expected node = .ok text ↔ node.tree.IsText text := by
  cases node <;> simp [decodeString, mismatch, Node.tree, Tree.IsText]

theorem decodeBool_eq_ok_iff {value : Bool} :
    decodeBool node = .ok value ↔ node.tree = .boolean value := by
  cases node <;> simp [decodeBool, mismatch, Node.tree]

theorem decodeUnsigned_eq_ok_iff {number : UInt64} :
    decodeUnsigned expected node = .ok number ↔ node.tree.IsUnsigned number := by
  cases node with
  | integer span value =>
    simp only [decodeUnsigned, Tree.IsUnsigned, Node.tree, Tree.integer.injEq, exists_eq_left',
      ← toUInt64_eq_iff]
    by_cases hvalue : value < 0
    · simp [hvalue]
    · simp [hvalue]
  | _ =>
    constructor
    · intro hread
      cases hread
    · rintro ⟨value, htree, -⟩
      cases htree

/-- A pair of sizes is read from the first two items of an array. -/
theorem decodePair_eq_ok_iff {min max : UInt64} :
    decodePair node = .ok (min, max) ↔
      ∃ first second more, node.tree = .array (first :: second :: more) ∧ first.IsUnsigned min ∧
        second.IsUnsigned max := by
  constructor
  · intro hread
    cases node with
    | array span items =>
      rcases items with _ | ⟨first, _ | ⟨second, rest⟩⟩
      · cases hread
      · obtain ⟨_, -, hshort⟩ := bind_eq_ok_iff.mp (locate_eq_ok_iff.mp hread)
        cases hshort
      · obtain ⟨least, hleast, hread⟩ := bind_eq_ok_iff.mp (locate_eq_ok_iff.mp hread)
        obtain ⟨greatest, hgreatest, hread⟩ := bind_eq_ok_iff.mp hread
        obtain ⟨rfl, rfl⟩ := Prod.mk.inj (Except.ok.inj hread)
        exact ⟨_, _, _, rfl, decodeUnsigned_eq_ok_iff.mp hleast,
          decodeUnsigned_eq_ok_iff.mp hgreatest⟩
    | _ => cases hread
  · rintro ⟨first, second, more, htree, hfirst, hsecond⟩
    cases node with
    | array span items =>
      rcases items with _ | ⟨head, _ | ⟨next, rest⟩⟩
      · cases htree
      · cases htree
      · obtain ⟨rfl, htail⟩ := List.cons.inj (Tree.array.inj htree)
        obtain ⟨rfl, -⟩ := List.cons.inj htail
        refine locate_eq_ok_iff.mpr
          (bind_eq_ok_iff.mpr ⟨min, decodeUnsigned_eq_ok_iff.mpr hfirst, ?_⟩)
        exact bind_eq_ok_iff.mpr ⟨max, decodeUnsigned_eq_ok_iff.mpr hsecond, rfl⟩
    | _ => cases htree

theorem decodeRange_eq_ok_iff {range : SizeRange} :
    decodeRange node = .ok range ↔ node.tree.IsRange range :=
  decodeRange_eq_ok_iff_pair.trans decodePair_eq_ok_iff

theorem mapM_decodeString_eq_ok_iff {items : List Node} {texts : List String} :
    items.mapM (decodeString expected) = .ok texts ↔ items.map Node.tree = texts.map .string := by
  induction items generalizing texts with
  | nil =>
    cases texts with
    | nil => exact ⟨fun _ => rfl, fun _ => rfl⟩
    | cons text rest => exact ⟨fun hread => (List.cons_ne_nil _ _ (Except.ok.inj hread).symm).elim,
        fun htree => (List.cons_ne_nil _ _ htree.symm).elim⟩
  | cons item items ih =>
    rw [List.mapM_cons, bind_eq_ok_iff]
    constructor
    · rintro ⟨text, htext, hrest⟩
      obtain ⟨rest, hitems, hchanged⟩ := bind_eq_ok_iff.mp hrest
      obtain rfl := Except.ok.inj hchanged
      rw [List.map_cons, List.map_cons, ih.mp hitems, show item.tree = .string text from
        decodeString_eq_ok_iff.mp htext]
    · intro htree
      cases texts with
      | nil => cases htree
      | cons text rest =>
        obtain ⟨hitem, hitems⟩ := List.cons.inj htree
        exact ⟨text, decodeString_eq_ok_iff.mpr hitem,
          bind_eq_ok_iff.mpr ⟨rest, ih.mpr hitems, rfl⟩⟩

theorem decodeList_eq_ok_iff {texts : List String} :
    decodeList (decodeString expected) node = .ok texts ↔ node.tree.IsTexts texts := by
  cases node with
  | array span items =>
    rw [decodeList, locate_eq_ok_iff, mapM_decodeString_eq_ok_iff, Tree.IsTexts, Node.tree,
      Node.trees_eq_map, Tree.array.injEq]
  | _ =>
    constructor
    · intro hread
      cases hread
    · intro htree
      cases htree

/-- What a tree has for the fields of a record, if it has nothing else. -/
def Tree.Holds (tree : Tree) (names : List String) (find : String → Option Tree) : Prop :=
  tree.offers names = some find ∧ ∀ text, (find text).isSome = true → text ∈ names

/-- **A record** is read from what the tree of a value has for its fields, as far as fields do
not look at more than the trees of values. -/
theorem decodeRecord_eq_ok_iff_holds {ρ : Type} {name : String} {fields : List (Field ρ)}
    {defaults record : ρ} {P : (String → Option Tree) → Prop} (h : Orderless fields)
    (hnode : node.Distinct)
    (hfields : ∀ find, (∀ text item, find text = some item → item.Distinct) →
      (decodeNamed find fields defaults = .ok record ↔ P fun text => (find text).map Node.tree)) :
    decodeRecord name fields defaults node = .ok record ↔
      ∃ find, node.tree.Holds (fields.map Field.name) find ∧ P find := by
  rw [decodeRecord_eq_ok_iff h hnode]
  constructor
  · rintro ⟨find, hfind, hknown, hread⟩
    refine ⟨fun text => (find text).map Node.tree, ⟨?_, fun text htext => ?_⟩, ?_⟩
    · rw [Node.offers_tree, hfind, Option.map_some]
    · rw [Option.isSome_map] at htext
      obtain ⟨item, hitem⟩ := Option.isSome_iff_exists.mp htext
      exact hknown text item hitem
    · exact (hfields find fun text item hitem => hnode.of_offers hfind hitem).mp hread
  · rintro ⟨under, ⟨hunder, hknown⟩, hP⟩
    rw [Node.offers_tree] at hunder
    obtain ⟨find, hfind, rfl⟩ := Option.map_eq_some_iff.mp hunder
    refine ⟨find, hfind, fun text item hitem => hknown text ?_, ?_⟩
    · simp only [hitem, Option.map_some, Option.isSome_some]
    · exact (hfields find fun text item hitem => hnode.of_offers hfind hitem).mpr hP

/-- A field that is read as a range. -/
theorem Field.reads_range {ρ : Type} {name : String} (set : SizeRange → ρ → ρ) (node : Node) :
    Field.Reads ⟨name, fun node record => decodeRange node >>=
      fun range => pure (set range record)⟩ set Tree.IsRange node :=
  Field.reads_of_decode_self set _ fun _ => decodeRange_eq_ok_iff

end Leaves

end Toml

namespace Config

open Toml

section Meanings

/-- What a tree means as the shape of programs. -/
def MeansShape (tree : Tree) (shape : ProgramShape) : Prop :=
  ∃ find, tree.Holds ["blocks", "input_vars", "const_vars", "literals"] find ∧
    Given Tree.IsRange defaultShape.blocks (find "blocks") shape.blocks ∧
    Given Tree.IsRange defaultShape.guardShape.inputVars (find "input_vars")
      shape.guardShape.inputVars ∧
    Given Tree.IsRange defaultShape.guardShape.constVars (find "const_vars")
      shape.guardShape.constVars ∧
    Given Tree.IsRange defaultShape.guardShape.literals (find "literals") shape.guardShape.literals

/-- What a truth value means for the values of inputs. -/
def MeansRandomize (tree : Tree) (sampling : Sampling) : Prop :=
  ∃ value, tree = .boolean value ∧ sampling = if value then .randomized else .fixed

/-- What a tree means as the way in which inputs get their values. -/
def MeansSampling (tree : Tree) (sampling : Sampling) : Prop :=
  ∃ find, tree.Holds ["randomize"] find ∧
    Given MeansRandomize .randomized (find "randomize") sampling

/-- What a tree means as an engine. -/
def MeansEngine (tree : Tree) (engine : Engine) : Prop :=
  ∃ find, tree.Holds ["command", "args"] find ∧
    Given Tree.IsText defaultEngine.command (find "command") engine.command ∧
    Given Tree.IsTexts defaultEngine.args (find "args") engine.args

/-- What a tree means as a seed. -/
def MeansSeed (tree : Tree) (seed : Option UInt64) : Prop :=
  ∃ number, tree.IsUnsigned number ∧ seed = some number

/-- What a tree means as the path of the program. -/
def MeansProgram (tree : Tree) (programPath : Option Path) : Prop :=
  ∃ text, tree.IsText text ∧ programPath = some (.ofString text)

/-- What a tree means as a configuration.  There is no default for the program. -/
def Means (tree : Tree) (config : Config) : Prop :=
  ∃ find, tree.Holds ["program_path", "seed", "generator", "inputs", "engine"] find ∧
    Given MeansProgram none (find "program_path") (some config.programPath) ∧
    Given MeansSeed none (find "seed") config.seed ∧
    Given MeansShape defaultShape (find "generator") config.shape ∧
    Given MeansSampling .randomized (find "inputs") config.sampling ∧
    Given MeansEngine defaultEngine (find "engine") config.engine

end Meanings

section Fields

variable {node : Node} {find : String → Option Node}

theorem orderless_shapeFields : Orderless shapeFields := by
  refine ⟨by decide, ?_⟩
  simp only [shapeFields, List.pairwise_cons, List.forall_mem_cons, List.not_mem_nil, false_implies,
    implies_true, and_true, List.Pairwise.nil]
  refine ⟨⟨?_, ?_, ?_⟩, ⟨?_, ?_⟩, ?_⟩ <;> exact Field.swap_of_sets fun _ _ _ => rfl

theorem orderless_samplingFields : Orderless samplingFields :=
  ⟨List.nodup_singleton _, List.pairwise_singleton _ _⟩

theorem orderless_engineFields : Orderless engineFields := by
  refine ⟨by decide, ?_⟩
  simp only [engineFields, List.pairwise_cons, List.forall_mem_cons, List.not_mem_nil,
    false_implies, implies_true, and_true, List.Pairwise.nil]
  exact Field.swap_of_sets fun _ _ _ => rfl

theorem orderless_fields : Orderless fields := by
  refine ⟨by decide, ?_⟩
  simp only [fields, List.pairwise_cons, List.forall_mem_cons, List.not_mem_nil, false_implies,
    implies_true, and_true, List.Pairwise.nil]
  refine ⟨⟨?_, ?_, ?_, ?_⟩, ⟨?_, ?_, ?_⟩, ⟨?_, ?_⟩, ?_⟩ <;>
    exact Field.swap_of_sets fun _ _ _ => rfl

/-- **The shape of programs** is what the tree of a value means. -/
theorem decodeShape_eq_ok_iff (h : node.Distinct) {name : String} {shape : ProgramShape} :
    decodeRecord name shapeFields defaultShape node = .ok shape ↔ MeansShape node.tree shape := by
  refine decodeRecord_eq_ok_iff_holds orderless_shapeFields h fun find _ => ?_
  -- one field after the other, each setting its own part of the defaults
  refine (decodeNamed_cons_eq_ok_iff defaultShape.blocks (fun node _ => Field.reads_range
      (fun range (shape : ProgramShape) => { shape with blocks := range }) node) rfl fun blocks =>
    decodeNamed_cons_eq_ok_iff defaultShape.guardShape.inputVars (fun node _ => Field.reads_range
      (fun range (shape : ProgramShape) => { shape with guardShape.inputVars := range }) node) rfl
        fun inputVars =>
    decodeNamed_cons_eq_ok_iff defaultShape.guardShape.constVars (fun node _ => Field.reads_range
      (fun range (shape : ProgramShape) => { shape with guardShape.constVars := range }) node) rfl
        fun constVars =>
    decodeNamed_cons_eq_ok_iff defaultShape.guardShape.literals (fun node _ => Field.reads_range
      (fun range (shape : ProgramShape) => { shape with guardShape.literals := range }) node) rfl
        fun literals => Iff.rfl).trans ?_
  constructor
  · rintro ⟨blocks, hblocks, inputVars, hinputVars, constVars, hconstVars, literals,
      hliterals, hread⟩
    obtain rfl := Except.ok.inj hread
    exact ⟨hblocks, hinputVars, hconstVars, hliterals⟩
  · rintro ⟨hblocks, hinputVars, hconstVars, hliterals⟩
    exact ⟨_, hblocks, _, hinputVars, _, hconstVars, _, hliterals, rfl⟩

/-- **The way in which inputs get their values** is what the tree of a value means. -/
theorem decodeSampling_eq_ok_iff (h : node.Distinct) {name : String} {sampling : Sampling} :
    decodeRecord name samplingFields .randomized node = .ok sampling ↔
      MeansSampling node.tree sampling := by
  refine decodeRecord_eq_ok_iff_holds orderless_samplingFields h fun find _ => ?_
  have hreads : ∀ node : Node,
      Field.Reads ⟨"randomize", fun node _ => decodeBool node >>= fun value =>
          pure (if value = true then Sampling.randomized else .fixed)⟩
        (fun sampling _ => sampling) MeansRandomize node := fun node =>
    Field.reads_of_decode _ (fun sampling _ => sampling) _ fun sampling => by
      simp only [decodeBool_eq_ok_iff, MeansRandomize]
  refine (decodeNamed_cons_eq_ok_iff Sampling.randomized (fun node _ => hreads node) rfl
    fun sampling => Iff.rfl).trans ?_
  constructor
  · rintro ⟨value, hvalue, hread⟩
    obtain rfl := Except.ok.inj hread
    exact hvalue
  · exact fun hvalue => ⟨_, hvalue, rfl⟩

/-- **An engine** is what the tree of a value means. -/
theorem decodeEngine_eq_ok_iff (h : node.Distinct) {name : String} {engine : Engine} :
    decodeRecord name engineFields defaultEngine node = .ok engine ↔
      MeansEngine node.tree engine := by
  refine decodeRecord_eq_ok_iff_holds orderless_engineFields h fun find _ => ?_
  refine (decodeNamed_cons_eq_ok_iff defaultEngine.command (fun node _ => Field.reads_of_decode_self
      (fun command (engine : Engine) => { engine with command }) Tree.IsText
        fun _ => decodeString_eq_ok_iff) rfl fun command =>
    decodeNamed_cons_eq_ok_iff defaultEngine.args (fun node _ => Field.reads_of_decode_self
      (fun args (engine : Engine) => { engine with args }) Tree.IsTexts
        fun _ => decodeList_eq_ok_iff) rfl fun args => Iff.rfl).trans ?_
  constructor
  · rintro ⟨command, hcommand, args, hargs, hread⟩
    obtain rfl := Except.ok.inj hread
    exact ⟨hcommand, hargs⟩
  · rintro ⟨hcommand, hargs⟩
    exact ⟨_, hcommand, _, hargs, rfl⟩

/-- What stands under each key of a configuration. -/
structure DraftMeans (draft : Draft) (find : String → Option Tree) : Prop where
  programPath : Given MeansProgram none (find "program_path") draft.programPath
  seed : Given MeansSeed none (find "seed") draft.seed
  shape : Given MeansShape defaultShape (find "generator") draft.shape
  sampling : Given MeansSampling .randomized (find "inputs") draft.sampling
  engine : Given MeansEngine defaultEngine (find "engine") draft.engine

/-- **A draft** of a configuration is what stands under each of its keys. -/
theorem decodeDraft_eq_ok_iff (h : node.Distinct) {name : String} {draft : Draft} :
    decodeRecord name fields defaults node = .ok draft ↔
      ∃ find, node.tree.Holds ["program_path", "seed", "generator", "inputs", "engine"] find ∧
        DraftMeans draft find := by
  refine decodeRecord_eq_ok_iff_holds orderless_fields h fun find hfind => ?_
  -- the last three fields are records themselves, so their values have to be without repetitions
  refine (decodeNamed_cons_eq_ok_iff none (fun node _ => Field.reads_of_decode
      (fun text => some (.ofString text))
      (fun programPath (draft : Draft) => { draft with programPath }) MeansProgram
        fun programPath => by
        simp only [decodeString_eq_ok_iff, MeansProgram]) rfl fun programPath =>
    decodeNamed_cons_eq_ok_iff none (fun node _ => Field.reads_of_decode some
      (fun seed (draft : Draft) => { draft with seed }) MeansSeed fun seed => by
        simp only [decodeUnsigned_eq_ok_iff, MeansSeed]) rfl fun seed =>
    decodeNamed_cons_eq_ok_iff defaultShape (fun node hnode => Field.reads_of_decode_self
      (fun shape (draft : Draft) => { draft with shape }) MeansShape fun _ =>
        decodeShape_eq_ok_iff (hfind _ node hnode)) rfl fun shape =>
    decodeNamed_cons_eq_ok_iff Sampling.randomized (fun node hnode => Field.reads_of_decode_self
      (fun sampling (draft : Draft) => { draft with sampling }) MeansSampling fun _ =>
        decodeSampling_eq_ok_iff (hfind _ node hnode)) rfl fun sampling =>
    decodeNamed_cons_eq_ok_iff defaultEngine (fun node hnode => Field.reads_of_decode_self
      (fun engine (draft : Draft) => { draft with engine }) MeansEngine fun _ =>
        decodeEngine_eq_ok_iff (hfind _ node hnode)) rfl fun engine => Iff.rfl).trans ?_
  constructor
  · rintro ⟨programPath, hprogram, seed, hseed, shape, hshape, sampling, hsampling, engine,
      hengine, hread⟩
    obtain rfl := Except.ok.inj hread
    exact ⟨hprogram, hseed, hshape, hsampling, hengine⟩
  · rintro ⟨hprogram, hseed, hshape, hsampling, hengine⟩
    exact ⟨_, hprogram, _, hseed, _, hshape, _, hsampling, _, hengine, rfl⟩

/-- **A configuration** is what the tree of its document means. -/
theorem ofNode_eq_ok_iff (h : node.Distinct) {config : Config} :
    ofNode node = .ok config ↔ Means node.tree config := by
  rw [ofNode_eq_ok_iff_exists_draft]
  constructor
  · rintro ⟨draft, programPath, hrecord, hprogram, rfl⟩
    obtain ⟨find, hholds, hdraft⟩ := (decodeDraft_eq_ok_iff h).mp hrecord
    exact ⟨find, hholds, hprogram ▸ hdraft.programPath, hdraft.seed, hdraft.shape, hdraft.sampling,
      hdraft.engine⟩
  · rintro ⟨find, hholds, hprogram, hseed, hshape, hsampling, hengine⟩
    refine ⟨⟨some config.programPath, config.seed, config.shape, config.sampling, config.engine⟩,
      config.programPath, ?_, rfl, rfl⟩
    exact (decodeDraft_eq_ok_iff h).mpr
      ⟨find, hholds, ⟨hprogram, hseed, hshape, hsampling, hengine⟩⟩

end Fields

section Layouts

variable {text : String} {node : Node} {config : Config}

/-- A text that is a document is a configuration if its table is one. -/
theorem parse_eq_ok_iff_of_read (h : Document.read text = .ok node) :
    parse text = .ok config ↔ ofNode node = .ok config := by
  simp only [parse, h]
  cases ofNode node with
  | error fault =>
    constructor
    · intro hparse
      cases hparse
    · intro hnode
      cases hnode
  | ok made => exact ⟨fun hparse => congrArg _ (Except.ok.inj hparse), fun hnode =>
      congrArg _ (Except.ok.inj hnode)⟩

/-- A text that is a document is the configuration that its tree means. -/
theorem parse_eq_ok_iff_means (h : Document.read text = .ok node) :
    parse text = .ok config ↔ Means node.tree config :=
  (parse_eq_ok_iff_of_read h).trans (ofNode_eq_ok_iff (distinct_of_read h))

/-- A text that is read as a value, places apart, is read as one with its tree. -/
theorem exists_read_of_unplaced (text : String) (plain : Node)
    (h : (Document.read text).toOption.map Node.unplaced = some plain) :
    ∃ node, Document.read text = .ok node ∧ node.tree = plain.tree := by
  obtain ⟨node, hnode, rfl⟩ := Option.map_eq_some_iff.mp h
  cases hread : Document.read text with
  | error place =>
    rw [hread] at hnode
    cases hnode
  | ok made =>
    rw [hread] at hnode
    obtain rfl := Option.some.inj hnode
    exact ⟨made, rfl, made.tree_unplaced.symm⟩

/-- A text on which the reader of configurations gives up is no configuration. -/
theorem parse_of_read_error {place : Nat} (h : Document.read text = .error place) :
    parse text = .error (.syntaxError place) := by
  rw [parse, h]

/-- **Documents that denote the same tree**, and that the reader of configurations does not give
up on, are the same configuration or none, and a configuration is what stands under each of its
keys.  A document in which values lie too deep inside each other, or too many keys are joined by
dots, is refused whatever it denotes. -/
theorem parse_of_tree_eq {limit limit' : Nat} {first second : String} {firstNode secondNode : Node}
    (hfirst : Document.readWithin limit first = .ok firstNode)
    (hsecond : Document.readWithin limit' second = .ok secondNode)
    (htree : firstNode.tree = secondNode.tree) :
    (Document.IsShallow first → Document.IsShallow second →
      ∀ config, parse first = .ok config ↔ parse second = .ok config) ∧
    (Document.IsShallow first → ∀ config, parse first = .ok config ↔ Means firstNode.tree config) ∧
    (¬Document.IsShallow first → ∃ place, parse first = .error (.syntaxError place)) := by
  have hmeans : ∀ {limit : Nat} {text : String} {node : Node},
      Document.readWithin limit text = .ok node → Document.IsShallow text →
        ∀ config, parse text = .ok config ↔ Means node.tree config := by
    intro limit text node hwithin hshallow config
    obtain ⟨made, hread⟩ := hshallow
    rw [Document.eq_of_readWithin hwithin hread]
    exact parse_eq_ok_iff_means hread
  refine ⟨fun hshallow hshallow' config => ?_, hmeans hfirst, fun hdeep => ?_⟩
  · rw [hmeans hfirst hshallow, htree, hmeans hsecond hshallow']
  · rcases Document.read_cases hfirst with hread | ⟨-, place, hread⟩
    · exact absurd ⟨firstNode, hread⟩ hdeep
    · exact ⟨place, parse_of_read_error hread⟩

/-- One configuration under a header, in braces and by dotted keys; and a document that is none,
of whose two faults the first one is reported. -/
theorem parse_of_tree_eq_layouts :
    (∃ config, parse "program_path = 'p.js'\n[generator]\nblocks = [1, 2]" = .ok config ∧
      parse "generator = {blocks = [1, 2]}\nprogram_path = 'p.js'" = .ok config ∧
      parse "generator.blocks = [1, 2]\nprogram_path = 'p.js'" = .ok config) ∧
    ∃ fault fault', parse "a = 1\nb = 2" = .error fault ∧ parse "b = 2\na = 1" = .error fault' ∧
      fault.message ≠ fault'.message := by
  refine ⟨?_, .valueFault ⟨some ⟨0, 1⟩, .unknownField "a" (fields.map Field.name)⟩,
    .valueFault ⟨some ⟨0, 1⟩, .unknownField "b" (fields.map Field.name)⟩, by decide +kernel,
    by decide +kernel, by decide +kernel⟩
  obtain ⟨header, hheader, hheaderTree⟩ := exists_read_of_unplaced
    "program_path = 'p.js'\n[generator]\nblocks = [1, 2]"
    (.table (some nowhere) [(⟨"program_path", nowhere⟩, .string nowhere "p.js"),
      (⟨"generator", nowhere⟩, .table (some nowhere)
        [(⟨"blocks", nowhere⟩, .array nowhere [.integer nowhere 1, .integer nowhere 2])])]) (by cbv)
  obtain ⟨braces, hbraces, hbracesTree⟩ := exists_read_of_unplaced
    "generator = {blocks = [1, 2]}\nprogram_path = 'p.js'"
    (.table (some nowhere) [(⟨"generator", nowhere⟩, .table (some nowhere)
        [(⟨"blocks", nowhere⟩, .array nowhere [.integer nowhere 1, .integer nowhere 2])]),
      (⟨"program_path", nowhere⟩, .string nowhere "p.js")]) (by cbv)
  obtain ⟨dotted, hdotted, hdottedTree⟩ := exists_read_of_unplaced
    "generator.blocks = [1, 2]\nprogram_path = 'p.js'"
    (.table (some nowhere) [(⟨"generator", nowhere⟩, .table none
        [(⟨"blocks", nowhere⟩, .array nowhere [.integer nowhere 1, .integer nowhere 2])]),
      (⟨"program_path", nowhere⟩, .string nowhere "p.js")]) (by cbv)
  have horder : header.tree = dotted.tree := by
    rw [hheaderTree, hdottedTree]
    exact Node.tree_table_of_perm (.swap _ _ _) (by decide) _ none
  have hform : braces.tree = dotted.tree := by
    rw [hbracesTree, hdottedTree]
    rfl
  have haccepted : parse "generator.blocks = [1, 2]\nprogram_path = 'p.js'" =
      .ok ⟨.ofString "p.js", none, { defaultShape with blocks := ⟨1, 2, by decide⟩ }, .randomized,
        defaultEngine⟩ := by
    decide +kernel
  have hshallow : Document.IsShallow "generator.blocks = [1, 2]\nprogram_path = 'p.js'" :=
    ⟨_, hdotted⟩
  exact ⟨_, ((parse_of_tree_eq hheader hdotted horder).1 ⟨_, hheader⟩ hshallow _).mpr haccepted,
    ((parse_of_tree_eq hbraces hdotted hform).1 ⟨_, hbraces⟩ hshallow _).mpr haccepted, haccepted⟩

/-- Two texts are documents, and their values are found to have the same tree. -/
def denoteAlike (limit : Nat) (first second : String) : Bool :=
  match Document.readWithin limit first, Document.readWithin limit second with
  | .ok node, .ok node' => node.isLike node'
  | _, _ => false

theorem tree_eq_of_denoteAlike {limit : Nat} {first second : String}
    (h : denoteAlike limit first second = true) :
    ∃ node node', Document.readWithin limit first = .ok node ∧
      Document.readWithin limit second = .ok node' ∧ node.tree = node'.tree := by
  unfold denoteAlike at h
  split at h
  · rename_i node node' hfirst hsecond
    exact ⟨node, node', hfirst, hsecond, Node.tree_eq_of_isLike h⟩
  · cases h

/-- A configuration with something behind the two ends of a range, where nothing looks at it. -/
private def withThirdBound (value : String) : String :=
  "program_path='p.js'\ngenerator.blocks=[1,2," ++ value ++ "]"

/-- Eighty keys, one below the other: joined by dots alone they are too many, and the text is
refused; in two pairs of braces they are the same tree, and the text is a configuration. -/
theorem parse_of_deep_layouts :
    let keys (count : Nat) : String := String.join (List.replicate (count - 1) "a.") ++ "a="
    let dotted := withThirdBound (r"{" ++ keys 80 ++ r"1}")
    let braced := withThirdBound (r"{" ++ keys 40 ++ r"{" ++ keys 40 ++ r"1}}")
    (∃ node node', Document.readWithin 100 dotted = .ok node ∧
      Document.readWithin 100 braced = .ok node' ∧ node.tree = node'.tree) ∧
    (∃ place, parse dotted = .error (.syntaxError place)) ∧
      ∃ config, parse braced = .ok config := by
  intro keys dotted braced
  let config : Config := ⟨.ofString "p.js", none,
    { defaultShape with blocks := ⟨1, 2, by decide⟩ }, .randomized, defaultEngine⟩
  exact ⟨tree_eq_of_denoteAlike (by decide +kernel), ⟨202, by decide +kernel⟩, config,
    by decide +kernel⟩

end Layouts

end Config

end EngineFuzz
