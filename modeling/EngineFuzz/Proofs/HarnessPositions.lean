import EngineFuzz.Proofs.HarnessLines
/-!
# Looking up the lines of a harness

The positions of a harness are of use to somebody who has its text and looks a line up by its
number.  The text is divided into three stretches: the lines before the program, the program's
own lines, and the lines behind it.  The offset is the length of the first, and the fault
handler begins the third.

* `linesOf_text` — the three stretches;
* `lineAt?_loopLine`, `lineAt?_faultLine` — what stands at the two positions;
* `lineAt?_lineOffset_add` — a line of the program is found at its own number plus the offset;
* `take_drop_linesOf_text` — between the offset and the handler stand the program's lines alone.
-/

namespace EngineFuzz.HarnessLayout

open Text (linesOf lineAt?)

variable (source : String) (ids : HarnessIds)

/-- The text is divided into the lines before the program, the program's lines and those behind
it. -/
theorem linesOf_text :
    linesOf (ofSource source ids).render.text =
      (ofSource source ids).opening.map String.ofList ++ linesOf source ++
        (ofSource source ids).closing.map String.ofList := by
  have hclear : ∀ directive ∈ (ofSource source ids).pragma, Text.IsClear directive.toList :=
    fun _ => isClear_of_mem_pragmaOf
  rw [linesOf, scriptLines_text hclear, lines, List.map_append, List.map_append]
  rfl

/-- The offset is the number of the lines before the program. -/
theorem lineOffset_eq :
    (ofSource source ids).render.positions.lineOffset =
      ((ofSource source ids).opening.map String.ofList).length := by
  rw [positions_eq, List.length_map]

/-- The fault handler follows the last line of the program. -/
theorem faultLine_eq :
    (ofSource source ids).render.positions.faultLine =
      (ofSource source ids).render.positions.lineOffset + (linesOf source).length + 1 := by
  have hbody : (ofSource source ids).body.length = (linesOf source).length :=
    (List.length_map _).symm
  rw [positions_eq, hbody]

/-- The line that opens the loop stands at its position. -/
theorem lineAt?_loopLine :
    lineAt? (ofSource source ids).render.text (ofSource source ids).render.positions.loopLine =
      some (String.ofList (loopOpening ids)) := by
  have hopening :
      ((ofSource source ids).opening.map String.ofList)[(pragmaOf source).toList.length]? =
      some (String.ofList (loopOpening ids)) := by
    simp [opening, ofSource]
  have hbound := (List.getElem?_eq_some_iff.mp hopening).1
  have hloop : (ofSource source ids).render.positions.loopLine =
      (pragmaOf source).toList.length + 1 := by
    rw [positions_eq]
    rfl
  rw [hloop, Text.lineAt?_add_one, linesOf_text, List.append_assoc,
    List.getElem?_append_left hbound, hopening]

/-- The line of the fault handler stands at its position. -/
theorem lineAt?_faultLine :
    lineAt? (ofSource source ids).render.text (ofSource source ids).render.positions.faultLine =
      some (String.ofList (faultOpening ids)) := by
  rw [faultLine_eq, lineOffset_eq, ← List.length_append, Text.lineAt?_add_one, linesOf_text,
    List.getElem?_append_right (Nat.le_refl _), Nat.sub_self]
  rfl

/-- Between the offset and the fault handler stand the lines of the program, and no others. -/
theorem take_drop_linesOf_text :
    ((linesOf (ofSource source ids).render.text).drop
        (ofSource source ids).render.positions.lineOffset).take
      ((ofSource source ids).render.positions.faultLine -
        (ofSource source ids).render.positions.lineOffset - 1) = linesOf source := by
  have hcount : (ofSource source ids).render.positions.faultLine -
      (ofSource source ids).render.positions.lineOffset - 1 = (linesOf source).length := by
    rw [faultLine_eq]
    omega
  rw [hcount, lineOffset_eq, linesOf_text, List.append_assoc, List.drop_left, List.take_left]

/-- A line of the program is found in the harness at its own number plus the offset. -/
theorem lineAt?_lineOffset_add {k : Nat} (hpos : 1 ≤ k) (hle : k ≤ (linesOf source).length) :
    lineAt? (ofSource source ids).render.text
        ((ofSource source ids).render.positions.lineOffset + k) = lineAt? source k := by
  obtain ⟨j, rfl⟩ : ∃ j, k = j + 1 := ⟨k - 1, by omega⟩
  rw [lineOffset_eq, ← Nat.add_assoc, Text.lineAt?_add_one, Text.lineAt?_add_one, linesOf_text,
    List.append_assoc, List.getElem?_append_right (Nat.le_add_right _ _), Nat.add_sub_cancel_left,
    List.getElem?_append_left (by omega)]

end EngineFuzz.HarnessLayout
