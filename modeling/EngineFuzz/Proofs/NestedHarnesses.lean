import EngineFuzz.Proofs.HarnessPositions
import EngineFuzz.Proofs.HarnessText
/-!
# Harnesses of harnesses

A harness is a script like any other, so a harness can be made of it again.  Each level puts its
opening before and its closing behind the lines of the one below.  How many lines an opening has
depends on the directive alone, and a harness begins with the directive of its source, or with
its loop if there is none.  So the directive is the same at every level, every level moves the
lines below it by the same number, and the positions that a level has reported stay right when
that number is added once for each level above.

* `nested` — a source made into a harness again and again;
* `pragmaOf_text`, `pragmaOf_nested` — the directive of a harness is that of its source;
* `lineAt?_nested_add` — where a line of one level is found in the levels above;
* `nested_positions_add_up` — the lines and the positions of all levels.
-/

namespace EngineFuzz.HarnessLayout

open Text (linesOf lineAt?)

section Directives

/-- A directive is the directive of itself. -/
theorem pragmaOf_self {source directive : String} (h : pragmaOf source = some directive) :
    pragmaOf directive = some directive := by
  have hmem : directive ∈ strictPragmas := List.mem_of_find?_eq_some h
  have hall : ∀ pragma ∈ strictPragmas, pragmaOf pragma = some pragma := by decide
  exact hall directive hmem

/-- The line that opens the loop begins with no directive. -/
theorem pragmaOf_loopOpening (ids : HarnessIds) :
    pragmaOf (String.ofList (loopOpening ids)) = none := by
  refine List.find?_eq_none.mpr fun pragma hpragma => ?_
  have hhead : ∀ pragma ∈ strictPragmas, pragma.toList.head? = some '"' ∨
      pragma.toList.head? = some '\'' := by decide
  rw [String.toList_ofList, List.isPrefixOf_iff_prefix]
  rintro ⟨more, hmore⟩
  obtain hquote | hquote := hhead pragma hpragma <;>
  · obtain ⟨rest, hrest⟩ := List.head?_eq_some_iff.mp hquote
    rw [hrest] at hmore
    cases (List.cons.inj hmore).1

/-- **The directive of a harness** is that of its source. -/
theorem pragmaOf_text (source : String) (ids : HarnessIds) :
    pragmaOf (ofSource source ids).render.text = pragmaOf source := by
  rw [pragmaOf_eq_head?, linesOf_text]
  cases hpragma : pragmaOf source with
  | none =>
    have hopening : (ofSource source ids).opening = [loopOpening ids, r"try {".toList, []] := by
      simp [opening, ofSource, hpragma]
    rw [hopening]
    exact pragmaOf_loopOpening ids
  | some directive =>
    have hopening : (ofSource source ids).opening =
        directive.toList :: [loopOpening ids, r"try {".toList, []] := by
      simp [opening, ofSource, hpragma]
    rw [hopening]
    change pragmaOf (String.ofList directive.toList) = _
    rw [String.ofList_toList, pragmaOf_self hpragma]

/-- How many lines a directive takes. -/
theorem length_pragmaOf (source : String) :
    (pragmaOf source).toList.length =
      if ∃ pragma ∈ strictPragmas, pragma.toList <+: source.toList then 1 else 0 := by
  have hfound : (pragmaOf source).isSome = true ↔
      ∃ pragma ∈ strictPragmas, pragma.toList <+: source.toList := by
    simp only [pragmaOf, List.find?_isSome, List.isPrefixOf_iff_prefix]
  rw [← if_congr hfound rfl rfl]
  cases pragmaOf source <;> rfl

end Directives

section Levels

variable (source : String) (ids : Nat → HarnessIds)

/-- A source that is made into a harness so many times, each with markers of its own. -/
def nested : (levels : Nat) → String
  | 0 => source
  | levels + 1 => (ofSource (nested levels) (ids levels)).render.text

/-- The directive is the same at every level. -/
theorem pragmaOf_nested (level : Nat) : pragmaOf (nested source ids level) = pragmaOf source := by
  induction level with
  | zero => rfl
  | succ level ih => rw [nested, pragmaOf_text, ih]

/-- Every level has the same number of lines before the program. -/
theorem lineOffset_nested (level : Nat) :
    (ofSource (nested source ids level) (ids level)).render.positions.lineOffset =
      3 + (pragmaOf source).toList.length := by
  rw [lineOffset_eq, ← pragmaOf_nested source ids level, Nat.add_comm]
  simp [opening, ofSource]

/-- **One level** adds its opening and its closing to the lines. -/
theorem length_linesOf_nested_succ (level : Nat) :
    (linesOf (nested source ids (level + 1))).length =
      (linesOf (nested source ids level)).length + (7 + (pragmaOf source).toList.length) := by
  have hclosing : (closing (ofSource (nested source ids level) (ids level))).length = 4 := rfl
  rw [nested, linesOf_text, List.length_append, List.length_append, ← lineOffset_eq,
    lineOffset_nested, List.length_map, hclosing]
  omega

/-- **All levels** add as many lines each. -/
theorem length_linesOf_nested (levels : Nat) :
    (linesOf (nested source ids levels)).length =
      (linesOf source).length + levels * (7 + (pragmaOf source).toList.length) := by
  induction levels with
  | zero => rw [nested, Nat.zero_mul, Nat.add_zero]
  | succ levels ih => rw [length_linesOf_nested_succ, ih, Nat.succ_mul, Nat.add_assoc]

/-- **A line of one level** is found further down by one offset for every level above. -/
theorem lineAt?_nested_add (level above : Nat) {k : Nat} (hpos : 1 ≤ k)
    (hle : k ≤ (linesOf (nested source ids level)).length) :
    lineAt? (nested source ids (level + above))
      (above * (3 + (pragmaOf source).toList.length) + k) =
      lineAt? (nested source ids level) k := by
  induction above with
  | zero => rw [Nat.add_zero, Nat.zero_mul, Nat.zero_add]
  | succ above ih =>
    let offset := 3 + (pragmaOf source).toList.length
    have hinside : above * offset + k ≤ (linesOf (nested source ids (level + above))).length := by
      have hbelow : above * offset ≤ above * (7 + (pragmaOf source).toList.length) :=
        Nat.mul_le_mul_left above (by omega)
      rw [length_linesOf_nested, Nat.add_mul, ← Nat.add_assoc, ← length_linesOf_nested source ids]
      omega
    have hmoved : (above + 1) * offset + k =
        (ofSource (nested source ids (level + above))
          (ids (level + above))).render.positions.lineOffset + (above * offset + k) := by
      rw [lineOffset_nested, Nat.succ_mul]
      omega
    rw [hmoved, ← Nat.add_assoc level above 1, nested,
      lineAt?_lineOffset_add _ _ (by omega) hinside, ih]

/-- **Harnesses of harnesses add up.**  Every level finds the directive of the source, opens its
loop in the same line and has the same offset.  Each level makes the text longer by that offset
and four lines.  The lines of the source are found behind one offset for every level, and the
line of a level's fault handler behind its reported position and one offset for every level
above it. -/
theorem nested_positions_add_up (levels : Nat) :
    let directives := if ∃ pragma ∈ strictPragmas, pragma.toList <+: source.toList then 1 else 0
    let text := nested source ids
    let layout := fun level => ofSource (text level) (ids level)
    let positions := fun level => (layout level).render.positions
    let caught := fun level =>
      "ex_" ++ String.ofList ((ids level).fault.hyphenatedChars.filter (· ≠ '-'))
    (∀ level < levels, (layout level).pragma = pragmaOf source ∧
      (positions level).loopLine = 1 + directives ∧ (positions level).lineOffset = 3 + directives) ∧
    (linesOf (text levels)).length = (linesOf source).length + levels * (7 + directives) ∧
    (∀ k, 1 ≤ k → k ≤ (linesOf source).length →
      lineAt? (text levels) (levels * (3 + directives) + k) = lineAt? source k) ∧
    ∀ level < levels,
      lineAt? (text levels)
          ((positions level).faultLine + (levels - (level + 1)) * (3 + directives)) =
        some (r"} catch (" ++ caught level ++ r") { //" ++ (ids level).fault.hyphenated) := by
  intro directives text layout positions caught
  have hdirectives : directives = (pragmaOf source).toList.length := (length_pragmaOf source).symm
  rw [hdirectives]
  refine ⟨fun level _ => ⟨pragmaOf_nested source ids level, ?_, lineOffset_nested source ids level⟩,
    length_linesOf_nested source ids levels, fun k hpos hle => ?_, fun level hlevel => ?_⟩
  · have hloop : (positions level).loopLine = (pragmaOf (text level)).toList.length + 1 := by
      simp only [positions, positions_eq]
      rfl
    rw [hloop, pragmaOf_nested, Nat.add_comm]
  · have hfound := lineAt?_nested_add source ids 0 levels hpos hle
    rwa [Nat.zero_add] at hfound
  · have hhandler : lineAt? (text (level + 1)) (positions level).faultLine =
        some (r"} catch (" ++ caught level ++ r") { //" ++ (ids level).fault.hyphenated) := by
      have hcaught : caught level = String.ofList (faultVariable (ids level)) :=
        (ofList_faultVariable (ids level)).symm
      rw [hcaught, ← ofList_faultOpening]
      exact lineAt?_faultLine (text level) (ids level)
    have hpos : 1 ≤ (positions level).faultLine := by
      simp only [positions, layout, faultLine_eq]
      omega
    have hle : (positions level).faultLine ≤ (linesOf (text (level + 1))).length := by
      simp only [positions, layout, text, faultLine_eq, lineOffset_nested,
        length_linesOf_nested_succ]
      omega
    have hfound := lineAt?_nested_add source ids (level + 1) (levels - (level + 1)) hpos hle
    rw [Nat.add_sub_cancel' hlevel] at hfound
    rw [Nat.add_comm, ← hhandler]
    exact hfound

end Levels

end EngineFuzz.HarnessLayout
