import EngineFuzz.Proofs.DocumentReading
/-!
# The limit of a reader

A reader of documents gives up where values lie too deep inside each other, or too many keys are
joined by dots.  Where it does so depends on how a document is written: a table in braces lies
inside the value that it belongs to, and one that is made by dotted keys does not.

A greater limit never changes what is read.  The limit is asked for at three points, and nowhere
is a second way tried after a refusal there, so a reader with a greater limit goes the same way
to the end.

* `Reader.Refines` — what one reader reads the other reads, too; `Refines.bind`,
  `Refines.guarded` — readers that are put together, and a limit that is made greater;
* `refines_values`, `refines_statements` — values and statements;
* `Document.readWithin_mono`, `Document.eq_of_readWithin` — what is read does not depend on the
  limit;
* `Document.IsShallow` — the text of a document that the reader of configurations does not give
  up on.
-/

namespace EngineFuzz.Toml

namespace Reader

section Refinement

variable {α γ : Type}

/-- Whatever the first reader yields and leaves, the second one does, too. -/
def Refines (first second : Reader α) : Prop :=
  ∀ cursor found, first cursor = .ok found → second cursor = .ok found

namespace Refines

theorem refl (reader : Reader α) : Refines reader reader := fun _ _ h => h

/-- Readers one after the other. -/
theorem bind {first second : Reader α} {next next' : α → Reader γ} (h : Refines first second)
    (hnext : ∀ a, Refines (next a) (next' a)) : Refines (first >>= next) (second >>= next') := by
  intro cursor found hread
  cases hfirst : first cursor with
  | error place =>
    rw [bind_of_error hfirst] at hread
    cases hread
  | ok result =>
    obtain ⟨a, left⟩ := result
    rw [bind_of_ok hfirst] at hread
    rw [bind_of_ok (h cursor _ hfirst)]
    exact hnext a left found hread

/-- Readers after the same one. -/
theorem after (reader : Reader α) {next next' : α → Reader γ}
    (h : ∀ a, Refines (next a) (next' a)) : Refines (reader >>= next) (reader >>= next') :=
  bind (.refl reader) h

/-- One reader or the other, as a condition says. -/
theorem ite {first first' second second' : Reader α} {p : Prop} [Decidable p]
    (h : Refines first second) (h' : Refines first' second') :
    Refines (if p then first else first') (if p then second else second') := by
  split
  · exact h
  · exact h'

/-- A reader that is refused under a condition, and one that is refused under a narrower one. -/
theorem guarded {first second : Reader γ} {next : Unit → Reader γ} {p q : Prop} [Decidable p]
    [Decidable q] (h : Refines first second) (hpq : q → p) :
    Refines (if p then Reader.fail >>= next else first)
      (if q then Reader.fail >>= next else second) := by
  by_cases hp : p
  · rw [if_pos hp]
    intro cursor found hread
    rw [bind_of_error (show (Reader.fail : Reader Unit) cursor = .error cursor.offset from rfl)]
      at hread
    cases hread
  · rw [if_neg hp, if_neg (mt hpq hp)]
    exact h

/-- Where a value was read. -/
theorem spanned {first second : Reader α} (h : Refines first second) :
    Refines (Reader.spanned first) (Reader.spanned second) :=
  .after _ fun _ => h.bind fun _ => .refl _

end Refines

end Refinement

end Reader

section Limits

open Reader

variable {limit limit' : Nat}

theorem refines_keyPath (h : limit ≤ limit') : Refines (keyPath limit) (keyPath limit') :=
  .after _ fun _ => .after _ fun _ => .guarded (.refl _) (Nat.le_trans h)

/-- A value at a depth is read as before if items and entries are. -/
theorem refines_value_succ {bound : Nat} (h : limit ≤ limit') (depth : Nat)
    (hitems : Refines (items limit bound (depth + 1)) (items limit' bound (depth + 1)))
    (hpairs : Refines (pairs limit bound (depth + 1) true) (pairs limit' bound (depth + 1) true)) :
    Refines (value limit (bound + 1) depth) (value limit' (bound + 1) depth) := by
  rw [value, value]
  refine .after _ fun cs => .ite (.refl _) (.ite ?_ (.ite ?_ (.refl _)))
  · refine .guarded ?_ (Nat.le_trans h)
    exact .bind (.spanned (.after _ fun _ => hitems)) fun _ => .refl _
  · refine .guarded ?_ (Nat.le_trans h)
    exact .bind (.spanned (.after _ fun _ => hpairs.bind fun _ => .refl _)) fun _ => .refl _

/-- Items are read as before if the first one and the others are. -/
theorem refines_items_succ {bound depth : Nat}
    (hvalue : Refines (value limit bound depth) (value limit' bound depth))
    (hitems : Refines (items limit bound depth) (items limit' bound depth)) :
    Refines (items limit (bound + 1) depth) (items limit' (bound + 1) depth) := by
  rw [items, items]
  refine .after _ fun _ => .after _ fun _ => .ite (.refl _) (hvalue.bind fun item => ?_)
  exact .after _ fun _ => .after _ fun _ => .ite (hitems.bind fun _ => .refl _) (.refl _)

/-- Entries are read as before if the first one and the others are. -/
theorem refines_pairs_succ {bound depth : Nat} (h : limit ≤ limit') (mayBeEmpty : Bool)
    (hvalue : Refines (value limit bound depth) (value limit' bound depth))
    (hpairs : Refines (pairs limit bound depth false) (pairs limit' bound depth false)) :
    Refines (pairs limit (bound + 1) depth mayBeEmpty)
      (pairs limit' (bound + 1) depth mayBeEmpty) := by
  rw [pairs, pairs]
  -- an entry may come at once, or behind the question whether there is none
  refine .after _ fun _ => .ite (.after _ fun _ => .ite (.refl _) ?_) ?_
  all_goals
    refine (refines_keyPath h).bind fun _ => .after _ fun _ => .after _ fun _ => ?_
    refine hvalue.bind fun _ => .after _ fun _ => .after _ fun _ => .ite ?_ (.refl _)
    exact hpairs.bind fun _ => .refl _

/-- **Values** that are read are read with any greater limit. -/
theorem refines_values (h : limit ≤ limit') (bound : Nat) :
    (∀ depth, Refines (value limit bound depth) (value limit' bound depth)) ∧
    (∀ depth, Refines (items limit bound depth) (items limit' bound depth)) ∧
    ∀ depth mayBeEmpty,
      Refines (pairs limit bound depth mayBeEmpty) (pairs limit' bound depth mayBeEmpty) := by
  -- values, items and entries are read by each other, each with a lesser bound
  induction bound with
  | zero => exact ⟨fun _ => .refl _, fun _ => .refl _, fun _ _ => .refl _⟩
  | succ bound ih =>
    obtain ⟨hvalue, hitems, hpairs⟩ := ih
    exact ⟨fun depth => refines_value_succ h depth (hitems _) (hpairs _ _),
      fun depth => refines_items_succ (hvalue depth) (hitems depth),
      fun depth mayBeEmpty => refines_pairs_succ h mayBeEmpty (hvalue depth) (hpairs depth false)⟩

theorem refines_header (h : limit ≤ limit') : Refines (header limit) (header limit') := by
  refine .bind (.spanned (.after _ fun _ => .ite ?_ (.after _ fun _ => ?_))) fun _ => .refl _
  all_goals exact (refines_keyPath h).bind fun _ => .refl _

theorem refines_keyValue (h : limit ≤ limit') : Refines (keyValue limit) (keyValue limit') := by
  refine (refines_keyPath h).bind fun _ => .after _ fun _ => .after _ fun _ => .after _ fun cs => ?_
  exact ((refines_values h _).1 0).bind fun _ => .refl _

/-- **Statements** that are read are read with any greater limit. -/
theorem refines_statements (h : limit ≤ limit') (bound : Nat) (a : Assembly) :
    Refines (statements limit bound a) (statements limit' bound a) := by
  induction bound generalizing a with
  | zero => exact .refl _
  | succ bound ih =>
    rw [statements, statements]
    refine .after _ fun _ => .after _ fun cs => ?_
    split
    · exact .refl _
    · exact .after _ fun _ => .after _ fun _ => ih a
    · exact .after _ fun _ => ih a
    · exact .after _ fun _ => ih a
    · exact (refines_header h).bind fun _ => .after _ fun b => ih b
    · exact (refines_keyValue h).bind fun _ => .after _ fun b => ih b

end Limits

namespace Document

variable {limit limit' : Nat} {text : String} {node node' : Node}

/-- **A greater limit** reads the same. -/
theorem readWithin_mono (h : limit ≤ limit') (hread : readWithin limit text = .ok node) :
    readWithin limit' text = .ok node := by
  have hdocument : Reader.Refines (document limit) (document limit') :=
    .after _ fun _ => .after _ fun _ => (refines_statements h _ _).bind fun _ => .refl _
  cases hfound : document limit (.ofText text.toList) with
  | error place =>
    rw [readWithin, hfound] at hread
    cases hread
  | ok found =>
    rw [readWithin, hfound] at hread
    rw [readWithin, hdocument _ _ hfound]
    exact hread

/-- Two limits with which a text is a document read the same. -/
theorem eq_of_readWithin (h : readWithin limit text = .ok node)
    (h' : readWithin limit' text = .ok node') : node = node' := by
  have hboth := readWithin_mono (Nat.le_max_left limit limit') h
  rw [readWithin_mono (Nat.le_max_right limit limit') h'] at hboth
  exact (Except.ok.inj hboth).symm

/-- The limit of configurations is enough to read a text as a document. -/
def IsShallow (text : String) : Prop := ∃ node, read text = .ok node

/-- What a text is read as with any limit, the reader of configurations reads, too, or it gives
up. -/
theorem read_cases (h : readWithin limit text = .ok node) :
    read text = .ok node ∨ ¬IsShallow text ∧ ∃ place, read text = .error place := by
  cases hread : read text with
  | ok made => exact Or.inl (congrArg Except.ok (eq_of_readWithin hread h))
  | error place =>
    refine Or.inr ⟨?_, place, rfl⟩
    rintro ⟨made, hmade⟩
    rw [hread] at hmade
    cases hmade

end Document

end EngineFuzz.Toml
