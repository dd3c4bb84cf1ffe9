import EngineFuzz.Proofs.BlockLines
import EngineFuzz.Proofs.ConfigFields
import EngineFuzz.Proofs.ExpressionLanguage
import EngineFuzz.Proofs.SeedLine
/-!
# The limits of synthesis

A synthesis reserves room for what it is going to make before it makes it: for all operands of
an expression at once, and for all blocks of a program.  The room is at most `2 ^ 63 - 1`
octets, and the counts are added as 64-bit sizes.  What a range may ask for is only checked for
its order, so a shape may ask for more than can be held; then some draws end in an overload.
Whether they can is told from the greatest counts alone, since every count of a range is drawn
by some words.

* `CanHold`, `checkCounts_eq_ok_iff`, `checkStorage_eq_ok_iff` — the two checks are one bound each;
* `ExpressionShape.Fits`, `ProgramShape.Fits` — shapes whose greatest counts keep within the bounds;
* `Program.exists_of_synthesize`, `Program.exists_reaches_overload` — a shape that fits is never
  overloaded, and one that does not is overloaded by some words;
* `Config.forall_ranges_shape`, `Config.forall_bounds_shape` — the ranges that a configuration
  can set;
* `synthesis_stays_within_limits` — both halves for the shapes of configurations, and for probes.
-/

namespace EngineFuzz

open Randomness

/-- That many items of so many octets each take no more than `2 ^ 63 - 1` octets. -/
def CanHold (octets count : Nat) : Prop := octets * count < 1 <<< 63

/-- Fewer items of the same size can be held too. -/
theorem CanHold.mono {octets count fewer : Nat} (h : CanHold octets count) (hle : fewer ≤ count) :
    CanHold octets fewer :=
  Nat.lt_of_le_of_lt (Nat.mul_le_mul_left octets hle) h

/-- Items are accepted if they can be held. -/
theorem checkStorage_eq_ok_iff {octets count : Nat} :
    checkStorage octets count = .ok () ↔ CanHold octets count := by
  unfold checkStorage CanHold
  rw [Nat.mul_comm]
  split <;> simp_all

/-- Counts are accepted if that many operands can be held; their sum is a 64-bit size then. -/
theorem checkCounts_eq_ok_iff {inputs consts literals : Nat} :
    checkCounts inputs consts literals = .ok () ↔ CanHold 16 (inputs + consts + literals) := by
  constructor
  · intro h
    unfold checkCounts at h
    split at h
    · exact checkStorage_eq_ok_iff.mp h
    · cases h
  · intro h
    exact checkCounts_eq_ok h

/-- The most operands that an expression may have can be held. -/
def ExpressionShape.Fits (shape : ExpressionShape) : Prop :=
  CanHold 16 (shape.inputVars.max.toNat + shape.constVars.max.toNat + shape.literals.max.toNat)

/-- The most blocks that a program may have can be held, and if it may have any, so can the most
operands of a guard. -/
structure ProgramShape.Fits (shape : ProgramShape) : Prop where
  blocks : CanHold 80 shape.blocks.max.toNat
  guards : 0 < shape.blocks.max.toNat → shape.guardShape.Fits

/-- What a check refuses, it refuses as an overload. -/
theorem exists_overload_of_ne_ok {checked : Except Overload Unit} (h : checked ≠ .ok ()) :
    ∃ overload, checked = .error overload := by
  cases checked with
  | ok done => exact absurd rfl h
  | error overload => exact ⟨overload, rfl⟩

namespace Synthesis

variable {α β : Type} {random middle : Source}

/-- After a value the synthesis goes on from where the random source is then. -/
theorem run_bind_of_ok {first : Synthesis α} {next : α → Synthesis β} {a : α}
    (h : first.run random = (.ok a, middle)) :
    (first >>= next).run random = (next a).run middle := by
  change ExceptT.bindCont next (first.run random).1 (first.run random).2 = _
  rw [h]
  rfl

/-- After an overload nothing is drawn. -/
theorem run_bind_of_error {first : Synthesis α} {next : α → Synthesis β} {overload : Overload}
    (h : first.run random = (.error overload, middle)) :
    (first >>= next).run random = (.error overload, middle) := by
  change ExceptT.bindCont next (first.run random).1 (first.run random).2 = _
  rw [h]
  rfl

/-- A check that fails overloads what begins with it. -/
theorem reaches_check {checked : Except Overload Unit} {overload : Overload}
    (h : checked = .error overload) (next : Unit → Synthesis β) :
    Draw.Reaches ((ExceptT.mk (pure checked) : Synthesis Unit) >>= next).run (.error overload) := by
  have hchecked : Draw.Reaches (ExceptT.mk (pure checked) : Synthesis Unit).run
      (.error overload) := by
    rw [h]
    exact Draw.reaches_pure _
  exact reaches_bind_of_error hchecked next

end Synthesis

namespace Expression

variable {pool : SymbolPool} {shape : ExpressionShape} {e : Expression} {random next : Source}

/-- **A synthesis of an expression** draws three counts, and either they are refused or the
chain is drawn behind them. -/
theorem run_synthesize (pool : SymbolPool) (shape : ExpressionShape) (random : Source) :
    let inputs := shape.inputVars.sample random
    let consts := shape.constVars.sample inputs.2
    let literals := shape.literals.sample consts.2
    (synthesize pool shape).run random =
      match checkCounts inputs.1 consts.1 literals.1 with
      | .ok () =>
        let chain := drawChain pool inputs.1 consts.1 literals.1 literals.2
        (.ok chain.1, chain.2)
      | .error overload => (.error overload, literals.2) := by
  intro inputs consts literals
  have hchecked : (synthesize pool shape).run random =
      ((ExceptT.mk (pure (checkCounts inputs.1 consts.1 literals.1)) : Synthesis Unit) >>= fun _ =>
        (liftM (drawChain pool inputs.1 consts.1 literals.1) : Synthesis Expression)).run
          literals.2 := rfl
  rw [hchecked]
  cases checkCounts inputs.1 consts.1 literals.1 with
  | ok done => exact Synthesis.run_liftM (drawChain pool inputs.1 consts.1 literals.1) literals.2
  | error overload => exact Synthesis.run_bind_of_error rfl

/-- No more operands are drawn than are asked for. -/
theorem length_drawOperands_le (table : List String) (count : Nat) (random : Source) :
    (drawOperands table count random).1.length ≤ count := by
  by_cases hne : table = []
  · rw [hne, drawOperands_nil]
    exact Nat.zero_le count
  · rw [length_drawOperands hne]

/-- The operands of an expression that is synthesized can be held. -/
theorem canHold_operands_of_synthesize (h : (synthesize pool shape).run random = (.ok e, next)) :
    CanHold 16 e.operands.length := by
  rw [run_synthesize] at h
  split at h
  · next hcheck =>
    let inputs := shape.inputVars.sample random
    let consts := shape.constVars.sample inputs.2
    let literals := shape.literals.sample consts.2
    let fromInputs := drawOperands pool.inputs inputs.1 literals.2
    let fromConstants := drawOperands pool.constants consts.1 fromInputs.2
    let fromLiterals := drawOperands pool.literals literals.1 fromConstants.2
    have hshuffled : e.operands.Perm (fromInputs.1 ++ fromConstants.1 ++ fromLiterals.1) := by
      obtain rfl := Except.ok.inj (Prod.mk.inj h).1
      exact Draw.shuffle_perm _ _
    have hinputs := length_drawOperands_le pool.inputs inputs.1 literals.2
    have hconstants := length_drawOperands_le pool.constants consts.1 fromInputs.2
    have hliterals := length_drawOperands_le pool.literals literals.1 fromConstants.2
    refine (checkCounts_eq_ok_iff.mp hcheck).mono ?_
    rw [hshuffled.length_eq, List.length_append, List.length_append]
    exact Nat.add_le_add (Nat.add_le_add hinputs hconstants) hliterals
  · cases h

/-- **A shape whose operands cannot all be held is overloaded** by the words that lead to its
greatest counts. -/
theorem exists_reaches_overload (pool : SymbolPool) (h : ¬shape.Fits) :
    ∃ overload, Draw.Reaches (synthesize pool shape).run (.error overload) := by
  have hgreatest : ∀ range : SizeRange,
      Draw.Reaches (liftM range.sample : Synthesis Nat).run (.ok range.max.toNat) := by
    intro range
    have hordered : range.min.toNat ≤ range.max.toNat := UInt64.le_iff_toNat_le.mp range.ordered
    exact Synthesis.reaches_liftM (SizeRange.reaches_sample hordered (Nat.le_refl _))
  have hrefused : checkCounts shape.inputVars.max.toNat shape.constVars.max.toNat
      shape.literals.max.toNat ≠ .ok () := fun hok => h (checkCounts_eq_ok_iff.mp hok)
  obtain ⟨overload, hoverload⟩ := exists_overload_of_ne_ok hrefused
  refine ⟨overload, ?_⟩
  exact Synthesis.reaches_bind (hgreatest shape.inputVars) (Synthesis.reaches_bind
    (hgreatest shape.constVars) (Synthesis.reaches_bind (hgreatest shape.literals)
      (Synthesis.reaches_check hoverload _)))

/-- Counts that are refused whatever is drawn overload every synthesis. -/
theorem run_synthesize_of_refused {overload : Overload}
    (h : ∀ inputs consts literals, shape.inputVars.min.toNat ≤ inputs ∧
      inputs ≤ shape.inputVars.max.toNat →
      shape.constVars.min.toNat ≤ consts ∧ consts ≤ shape.constVars.max.toNat →
      shape.literals.min.toNat ≤ literals ∧ literals ≤ shape.literals.max.toNat →
        checkCounts inputs consts literals = .error overload)
    (pool : SymbolPool) (random : Source) :
    ((synthesize pool shape).run random).1 = .error overload := by
  rw [run_synthesize, h _ _ _ (SizeRange.sample_bounds _ _) (SizeRange.sample_bounds _ _)
    (SizeRange.sample_bounds _ _)]

end Expression

namespace Program

variable {pool : SymbolPool} {shape : ProgramShape} {random next : Source} {program : Program}

/-- Blocks are drawn from every source if the operands of their guards can be held. -/
theorem exists_of_drawBlocks {guardShape : ExpressionShape} (h : guardShape.Fits)
    (pool : SymbolPool) (index count : Nat) (random : Source) :
    ∃ blocks next, (drawBlocks pool guardShape index count).run random = (.ok blocks, next) ∧
      blocks.length = count := by
  induction count generalizing index random with
  | zero => exact ⟨[], random, rfl, rfl⟩
  | succ count ih =>
    obtain ⟨condition, middle, hcondition⟩ := Expression.exists_of_synthesize pool h random
    obtain ⟨rest, next, hrest, hlength⟩ := ih (index + 1) middle
    refine ⟨⟨condition, tagOf index, firstBlockLine + index * blockLines⟩ :: rest, next, ?_,
      congrArg (· + 1) hlength⟩
    rw [drawBlocks, Synthesis.run_bind_of_ok hcondition, Synthesis.run_bind_of_ok hrest]
    rfl

/-- As many blocks are drawn as are asked for. -/
theorem length_of_drawBlocks {guardShape : ExpressionShape} {index count : Nat}
    {blocks : List ConditionalBlock}
    (h : (drawBlocks pool guardShape index count).run random = (.ok blocks, next)) :
    blocks.length = count := by
  induction count generalizing index random next blocks with
  | zero => exact (Except.ok.inj (Prod.mk.inj h).1) ▸ rfl
  | succ count ih =>
    obtain ⟨condition, middle, -, h⟩ := Synthesis.run_bind_eq_ok_iff.mp h
    obtain ⟨rest, after, hrest, h⟩ := Synthesis.run_bind_eq_ok_iff.mp h
    obtain rfl := Except.ok.inj (Prod.mk.inj h).1
    exact congrArg (· + 1) (ih hrest)

/-- **A synthesis of a program** draws the number of blocks, and either it is refused or the
blocks are drawn behind it. -/
theorem run_synthesize (pool : SymbolPool) (shape : ProgramShape) (random : Source) :
    let count := shape.blocks.sample random
    (synthesize pool shape).run random =
      ((ExceptT.mk (pure (checkStorage 80 count.1)) : Synthesis Unit) >>= fun _ =>
        drawBlocks pool shape.guardShape 0 count.1 >>= fun blocks =>
          pure ⟨blocks⟩).run count.2 := rfl

/-- **A shape that fits is never overloaded.** -/
theorem exists_of_synthesize (h : shape.Fits) (pool : SymbolPool) (random : Source) :
    ∃ program next, (synthesize pool shape).run random = (.ok program, next) := by
  let count := shape.blocks.sample random
  have hmax : count.1 ≤ shape.blocks.max.toNat := (shape.blocks.sample_bounds random).2
  have hcheck : checkStorage 80 count.1 = .ok () := checkStorage_eq_ok_iff.mpr (h.blocks.mono hmax)
  have hblocks : ∃ blocks next,
      (drawBlocks pool shape.guardShape 0 count.1).run count.2 = (.ok blocks, next) := by
    by_cases hnone : count.1 = 0
    · exact ⟨[], count.2, by rw [hnone]; rfl⟩
    · obtain ⟨blocks, next, hrun, -⟩ :=
        exists_of_drawBlocks (h.guards (by omega)) pool 0 count.1 count.2
      exact ⟨blocks, next, hrun⟩
  obtain ⟨blocks, next, hdrawn⟩ := hblocks
  refine ⟨⟨blocks⟩, next, ?_⟩
  rw [run_synthesize, hcheck]
  exact Synthesis.run_bind_of_ok hdrawn

/-- **A shape that does not fit is overloaded** by some words: those that lead to its greatest
number of blocks, and then to the greatest counts of the first guard. -/
theorem exists_reaches_overload (pool : SymbolPool) (h : ¬shape.Fits) :
    ∃ overload, Draw.Reaches (synthesize pool shape).run (.error overload) := by
  have hordered : shape.blocks.min.toNat ≤ shape.blocks.max.toNat :=
    UInt64.le_iff_toNat_le.mp shape.blocks.ordered
  have hcount : Draw.Reaches (liftM shape.blocks.sample : Synthesis Nat).run
      (.ok shape.blocks.max.toNat) :=
    Synthesis.reaches_liftM (SizeRange.reaches_sample hordered (Nat.le_refl _))
  by_cases hblocks : CanHold 80 shape.blocks.max.toNat
  · -- The blocks can be held, so there is a block, and its guard does not fit.
    have hguards : ¬(0 < shape.blocks.max.toNat → shape.guardShape.Fits) :=
      fun hguards => h ⟨hblocks, hguards⟩
    obtain ⟨hsome, hguard⟩ := Classical.not_imp.mp hguards
    obtain ⟨fewer, hfewer⟩ := Nat.exists_eq_add_of_lt hsome
    obtain ⟨overload, hoverload⟩ := Expression.exists_reaches_overload pool hguard
    have hchecked : Draw.Reaches
        (ExceptT.mk (pure (checkStorage 80 shape.blocks.max.toNat)) : Synthesis Unit).run
          (.ok ()) := by
      rw [checkStorage_eq_ok_iff.mpr hblocks]
      exact Draw.reaches_pure _
    have hdrawn : Draw.Reaches
        (drawBlocks pool shape.guardShape 0 shape.blocks.max.toNat).run (.error overload) := by
      rw [hfewer]
      exact Synthesis.reaches_bind_of_error hoverload _
    exact ⟨overload, Synthesis.reaches_bind hcount (Synthesis.reaches_bind hchecked
      (Synthesis.reaches_bind_of_error hdrawn _))⟩
  · obtain ⟨overload, hoverload⟩ :=
      exists_overload_of_ne_ok fun hok => hblocks (checkStorage_eq_ok_iff.mp hok)
    exact ⟨overload, Synthesis.reaches_bind hcount (Synthesis.reaches_check hoverload _)⟩

/-- A program has as many blocks as its shape allows. -/
theorem length_blocks_of_synthesize (h : (synthesize pool shape).run random = (.ok program, next)) :
    shape.blocks.min.toNat ≤ program.blocks.length ∧
      program.blocks.length ≤ shape.blocks.max.toNat := by
  obtain ⟨count, _, hcount, h⟩ := Synthesis.run_bind_eq_ok_iff.mp h
  obtain ⟨_, _, -, h⟩ := Synthesis.run_bind_eq_ok_iff.mp h
  obtain ⟨blocks, _, hblocks, h⟩ := Synthesis.run_bind_eq_ok_iff.mp h
  obtain rfl := Except.ok.inj (Prod.mk.inj h).1
  rw [Synthesis.run_liftM] at hcount
  have hsample : (shape.blocks.sample random).1 = count := Except.ok.inj (Prod.mk.inj hcount).1
  rw [length_of_drawBlocks hblocks, ← hsample]
  exact shape.blocks.sample_bounds random

/-- What has been synthesized can be held. -/
theorem canHold_of_synthesize (h : (synthesize pool shape).run random = (.ok program, next)) :
    CanHold 80 program.blocks.length ∧
      ∀ block ∈ program.blocks, CanHold 16 block.condition.operands.length := by
  constructor
  · obtain ⟨count, _, -, h⟩ := Synthesis.run_bind_eq_ok_iff.mp h
    obtain ⟨_, _, hcheck, h⟩ := Synthesis.run_bind_eq_ok_iff.mp h
    obtain ⟨blocks, _, hblocks, h⟩ := Synthesis.run_bind_eq_ok_iff.mp h
    obtain rfl := Except.ok.inj (Prod.mk.inj h).1
    have hstorage : checkStorage 80 count = .ok () := (Prod.mk.inj hcheck).1
    rw [length_of_drawBlocks hblocks]
    exact checkStorage_eq_ok_iff.mp hstorage
  · intro block hblock
    obtain ⟨k, hk⟩ := List.getElem?_of_mem hblock
    obtain ⟨source, after, hcondition⟩ := (isDrawn_of_synthesize h k block hk).condition
    exact Expression.canHold_operands_of_synthesize hcondition

/-- A program that has a block is overloaded if the counts of a guard are refused whatever is
drawn. -/
theorem run_synthesize_of_refused {overload : Overload} (hsome : 0 < shape.blocks.min.toNat)
    (hblocks : CanHold 80 shape.blocks.max.toNat)
    (h : ∀ random, ((Expression.synthesize pool shape.guardShape).run random).1 = .error overload)
    (random : Source) : ((synthesize pool shape).run random).1 = .error overload := by
  let count := shape.blocks.sample random
  obtain ⟨hmin, hmax⟩ := shape.blocks.sample_bounds random
  obtain ⟨fewer, hfewer⟩ := Nat.exists_eq_add_of_lt (Nat.lt_of_lt_of_le hsome hmin)
  have hcheck : checkStorage 80 count.1 = .ok () := checkStorage_eq_ok_iff.mpr (hblocks.mono hmax)
  have hguard : (Expression.synthesize pool shape.guardShape).run count.2 =
      (.error overload, ((Expression.synthesize pool shape.guardShape).run count.2).2) :=
    Prod.ext (h count.2) rfl
  have hdrawn : (drawBlocks pool shape.guardShape 0 count.1).run count.2 =
      (.error overload, ((Expression.synthesize pool shape.guardShape).run count.2).2) := by
    rw [hfewer]
    exact Synthesis.run_bind_of_error hguard
  have hrun : (synthesize pool shape).run random =
      (drawBlocks pool shape.guardShape 0 count.1 >>= fun blocks => pure ⟨blocks⟩).run count.2 := by
    rw [run_synthesize, hcheck]
    rfl
  rw [hrun, Synthesis.run_bind_of_error hdrawn]

end Program

/-- **A probe statement** over at most so many literals is never overloaded exactly if they can
be held. -/
theorem probeStatement_fits_iff (pool : SymbolPool) (literals : SizeRange) :
    (∀ random, ∃ statement next,
      (probeStatement pool literals).run random = (.ok statement, next)) ↔
    CanHold 16 literals.max.toNat := by
  have hfits : (ExpressionShape.literalsOnly literals).Fits ↔ CanHold 16 literals.max.toNat := by
    have hsum : (SizeRange.empty.max.toNat + SizeRange.empty.max.toNat) + literals.max.toNat =
        literals.max.toNat := Nat.zero_add _
    unfold ExpressionShape.Fits ExpressionShape.literalsOnly
    rw [hsum]
  rw [← hfits]
  constructor
  · intro hall
    by_contra hover
    obtain ⟨overload, words, hwords⟩ := Expression.exists_reaches_overload pool hover
    obtain ⟨statement, next, hrun⟩ := hall (.listed (words ++ []))
    rw [probeStatement, Synthesis.run_bind_of_error (hwords [])] at hrun
    cases hrun
  · intro hfits random
    obtain ⟨e, next, hrun⟩ := Expression.exists_of_synthesize pool hfits random
    exact ⟨"print(" ++ e.text ++ ");", next, Synthesis.run_bind_of_ok hrun⟩

/-- The ranges of a shape. -/
def ProgramShape.ranges (shape : ProgramShape) : List SizeRange :=
  [shape.blocks, shape.guardShape.inputVars, shape.guardShape.constVars, shape.guardShape.literals]

namespace Config

open Toml

/-- That all ranges of a shape end with integers of a document. -/
def IsBounded (shape : ProgramShape) : Prop := ∀ range ∈ shape.ranges, range.max.toNat < 2 ^ 63

section Ranges

variable {P : SizeRange → Prop} {shape changedShape : ProgramShape}
    {draft changed : Draft} {node : Node}

/-- A field of a shape that is read sets a range to one of the document. -/
theorem forall_ranges_of_read_shape (hdecoded : ∀ node range, decodeRange node = .ok range →
    P range) {field : Toml.Field ProgramShape} (hfield : field ∈ shapeFields)
    (hshape : ∀ range ∈ shape.ranges, P range) (h : field.read node shape = .ok changedShape) :
    ∀ range ∈ changedShape.ranges, P range := by
  simp only [ProgramShape.ranges, List.forall_mem_cons, List.not_mem_nil, false_imp_iff,
    implies_true, and_true] at hshape ⊢
  simp only [shapeFields, List.mem_cons, List.not_mem_nil, or_false] at hfield
  rcases hfield with rfl | rfl | rfl | rfl <;>
    obtain ⟨range, hrange, hchanged⟩ := bind_eq_ok_iff.mp h <;>
    obtain rfl := Except.ok.inj hchanged <;>
    have hread := hdecoded _ _ hrange
  case inl => exact ⟨hread, hshape.2⟩
  case inr.inl => exact ⟨hshape.1, hread, hshape.2.2⟩
  case inr.inr.inl => exact ⟨hshape.1, hshape.2.1, hread, hshape.2.2.2⟩
  case inr.inr.inr => exact ⟨hshape.1, hshape.2.1, hshape.2.2.1, hread⟩

/-- A field of a configuration that is read keeps its shape, or sets it to one of the document. -/
theorem forall_ranges_of_read (hdecoded : ∀ node range, decodeRange node = .ok range → P range)
    (hdefaults : ∀ range ∈ defaultShape.ranges, P range) {field : Toml.Field Draft}
    (hfield : field ∈ fields) (hdraft : ∀ range ∈ draft.shape.ranges, P range)
    (h : field.read node draft = .ok changed) : ∀ range ∈ changed.shape.ranges, P range := by
  simp only [fields, List.mem_cons, List.not_mem_nil, or_false] at hfield
  rcases hfield with rfl | rfl | rfl | rfl | rfl <;>
    obtain ⟨found, hfound, hchanged⟩ := bind_eq_ok_iff.mp h <;>
    obtain rfl := Except.ok.inj hchanged
  case inr.inr.inl =>
    exact decodeRecord_keeps (P := fun shape => ∀ range ∈ shape.ranges, P range)
      (fun _ hmem _ _ _ hbefore hread => forall_ranges_of_read_shape hdecoded hmem hbefore hread)
      hdefaults hfound
  all_goals exact hdraft

/-- **The ranges of a configuration** are those of a document and those that are set by default. -/
theorem forall_ranges_shape (hdecoded : ∀ node range, decodeRange node = .ok range → P range)
    (hdefaults : ∀ range ∈ defaultShape.ranges, P range) {text : String} {config : Config}
    (h : parse text = .ok config) : ∀ range ∈ config.shape.ranges, P range := by
  obtain ⟨span, entries, -, hconfig⟩ := parse_eq_ok_iff.mp h
  obtain ⟨draft, programPath, hentries, -, rfl⟩ := ofNode_table_eq_ok_iff.mp hconfig
  exact decodeEntries_keeps (P := fun draft => ∀ range ∈ draft.shape.ranges, P range)
    (fun _ hfield _ _ _ hbefore hread => forall_ranges_of_read hdecoded hdefaults hfield
      hbefore hread)
    hdefaults hentries

end Ranges

/-- **The ranges of a configuration** end with integers of a document, whether they are set or
not. -/
theorem forall_bounds_shape {text : String} {config : Config} (h : parse text = .ok config) :
    IsBounded config.shape :=
  forall_ranges_shape (P := fun range => range.max.toNat < 2 ^ 63)
    (fun _ _ hread => max_lt_of_decodeRange hread) (by decide) h

end Config

section Limits

variable {text : String} {config : Config}

/-- **The limits of synthesis.**  The ranges of a configuration end below `2 ^ 63`, which is too
much to hold.  From a shape that fits, every source makes a program; from any other, some words
lead to an overload.  What is made can be held.  Likewise a range of literals for probes is
never overloaded exactly if its greatest number of literals can be held. -/
theorem synthesis_stays_within_limits (h : Config.parse text = .ok config) (pool : SymbolPool) :
    (∀ range ∈ config.shape.ranges, range.max.toNat < 2 ^ 63) ∧
    (config.shape.Fits → ∀ random, ∃ program next,
      (Program.synthesize pool config.shape).run random = (.ok program, next)) ∧
    (¬config.shape.Fits → ∃ overload words, ∀ rest,
      (Program.synthesize pool config.shape).run (.listed (words ++ rest)) =
        (.error overload, .listed rest)) ∧
    (∀ random program next,
      (Program.synthesize pool config.shape).run random = (.ok program, next) →
        CanHold 80 program.blocks.length ∧
        ∀ block ∈ program.blocks, CanHold 16 block.condition.operands.length) ∧
    ∀ min max literals, SizeRange.named "literal" min max = .ok literals →
      ((∀ random, ∃ statement next,
        (probeStatement pool literals).run random = (.ok statement, next)) ↔
          CanHold 16 max.toNat) := by
  refine ⟨Config.forall_bounds_shape h, fun hfits => Program.exists_of_synthesize hfits pool,
    ?_, ?_, ?_⟩
  · intro hover
    exact Program.exists_reaches_overload pool hover
  · intro random program next hrun
    exact Program.canHold_of_synthesize hrun
  · intro min max literals hnamed
    obtain ⟨-, hmax⟩ := SizeRange.named_eq_ok_iff_ends.mp hnamed
    rw [probeStatement_fits_iff, hmax]

/-- A configuration that names a program only fits, and so makes a program from every source. -/
theorem synthesis_stays_within_limits_defaults :
    let config : Config :=
      ⟨.ofString "p.js", none, Config.defaultShape, .randomized, Config.defaultEngine⟩
    Config.parse "program_path = 'p.js'" = .ok config ∧
      ∀ random, ∃ program next,
        (Program.synthesize .standard config.shape).run random = (.ok program, next) := by
  intro config
  have hparse : Config.parse "program_path = 'p.js'" = .ok config := by decide +kernel
  have hfits : config.shape.Fits :=
    ⟨by unfold CanHold; decide, fun _ => by unfold ExpressionShape.Fits CanHold; decide⟩
  exact ⟨hparse, (synthesis_stays_within_limits hparse .standard).2.1 hfits⟩

/-- Few operands besides the greatest number of literals that a document can ask for can be
counted, but not held. -/
theorem checkCounts_greatest {inputs consts : Nat} (hfew : inputs + consts < 9) :
    checkCounts inputs consts (2 ^ 63 - 1) = .error .storage := by
  have hsize : inputs + consts + (2 ^ 63 - 1) < UInt64.size := by
    rw [UInt64.size]
    omega
  rw [checkCounts, if_pos hsize, checkStorage, if_neg (by omega)]

/-- Ranges that are accepted and overload every synthesis: literals that take too much, and
operands that are too many to be counted.  So does every probe with such a range of literals. -/
theorem accepted_ranges_overload :
    (∃ config, Config.parse
        "program_path = 'p.js'\n[generator]\nliterals = [9223372036854775807, 9223372036854775807]"
          = .ok config ∧
      ∀ pool random, ((Program.synthesize pool config.shape).run random).1 = .error .storage) ∧
    (∃ config, Config.parse
        ("program_path = 'p.js'\n[generator]\n" ++
          "literals = [9223372036854775807, 9223372036854775807]\n" ++
          "input_vars = [9223372036854775807, 9223372036854775807]\n" ++
          "const_vars = [9223372036854775807, 9223372036854775807]") = .ok config ∧
      ∀ pool random, ((Program.synthesize pool config.shape).run random).1 = .error .count) ∧
    ∃ range, SizeRange.named "literal" 9223372036854775807 9223372036854775807 = .ok range ∧
      ∀ pool random, ((probeStatement pool range).run random).1 = .error .storage := by
  let range := SizeRange.exactly 9223372036854775807
  have hexact : ∀ {count : Nat}, range.min.toNat ≤ count ∧ count ≤ range.max.toNat →
      count = 2 ^ 63 - 1 := fun hcount => Nat.le_antisymm hcount.2 hcount.1
  have hblocks : CanHold 80 Config.defaultShape.blocks.max.toNat := by
    unfold CanHold
    decide
  refine ⟨?_, ?_, range, by decide, fun pool random => ?_⟩
  · let shape : ProgramShape := { Config.defaultShape with guardShape.literals := range }
    refine ⟨⟨.ofString "p.js", none, shape, .randomized, Config.defaultEngine⟩, by decide +kernel,
      fun pool => Program.run_synthesize_of_refused Nat.zero_lt_two hblocks ?_⟩
    refine Expression.run_synthesize_of_refused ?_ pool
    intro inputs consts literals hinputs hconsts hliterals
    have hfewInputs : inputs ≤ 1 := hinputs.2
    have hfewConsts : consts ≤ 2 := hconsts.2
    rw [hexact hliterals]
    exact checkCounts_greatest (by omega)
  · let shape : ProgramShape := { Config.defaultShape with guardShape := ⟨range, range, range⟩ }
    refine ⟨⟨.ofString "p.js", none, shape, .randomized, Config.defaultEngine⟩, by decide +kernel,
      fun pool => Program.run_synthesize_of_refused Nat.zero_lt_two hblocks ?_⟩
    refine Expression.run_synthesize_of_refused ?_ pool
    intro inputs consts literals hinputs hconsts hliterals
    rw [hexact hinputs, hexact hconsts, hexact hliterals]
    rfl
  · have hrefused : ((Expression.synthesize pool (.literalsOnly range)).run random).1 =
        .error .storage := by
      refine Expression.run_synthesize_of_refused ?_ pool random
      intro inputs consts literals hinputs hconsts hliterals
      have hnoInputs : inputs ≤ 0 := hinputs.2
      have hnoConsts : consts ≤ 0 := hconsts.2
      rw [hexact hliterals]
      exact checkCounts_greatest (by omega)
    rw [probeStatement, Synthesis.run_bind_of_error (Prod.ext hrefused rfl)]

end Limits

end EngineFuzz
