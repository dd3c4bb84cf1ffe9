import EngineFuzz.Harness.File
import EngineFuzz.Proofs.NewFiles
/-!
# Writing a harness is all or nothing

The harness of a program is written in four steps: the program is read, two identifiers are
drawn, the suffix of a name is drawn, a file is made.  Only the first and the last can fail.  If
the first fails nothing has happened; if the last fails the draws have happened and the files
are those of before; and otherwise there is one more file.

What the last step depends on is known once the program has been read.  Its path leads through a
directory, and the path of the harness leads through the same one; so the file is made unless that
directory, the name or the length of the path forbids it, and no other fault can occur.

* `LeadsTo.sibling` — the path of a harness leads through the directory of its program;
* `instrument_all_or_nothing` — the three ends of writing a harness.
-/

namespace EngineFuzz

open Randomness

section Places

variable {files : FileTree} {path : Path} {directory : Location} {name : Text.Bytes}

/-- The path of a harness leads through the directory of its program. -/
theorem FileTree.LeadsTo.sibling (h : files.LeadsTo path directory name) (suffix : Uuid) :
    files.LeadsTo (path.sibling suffix) directory (path.siblingName suffix) := by
  obtain ⟨before, hsegments, hwalk⟩ := h.segments
  obtain ⟨kept, idles, hbefore, hidle, habsolute, hsibling⟩ :=
    Path.exists_segmentsOf_sibling hsegments h.isName suffix
  refine ⟨Path.isName_siblingName path suffix, ⟨kept, hsibling, ?_⟩, h.isDirectory⟩
  rw [hbefore] at hwalk
  obtain ⟨place, hkept, hidles⟩ := walk_append_eq_ok_iff.mp hwalk
  rw [start, habsolute]
  change files.walk (files.start path) kept = .ok directory
  rw [hkept, eq_of_walk_idle hidle hidles]

/-- The path of a harness holds no zero octet, unless the path of its program does. -/
theorem FileTree.LeadsTo.zero_notMem_sibling (h : files.LeadsTo path directory name)
    (hzero : 0 ∉ path.bytes) (suffix : Uuid) : 0 ∉ (path.sibling suffix).bytes := by
  obtain ⟨before, hsegments, -⟩ := h.segments
  obtain ⟨kept, idles, hbefore, -, -, hsibling⟩ :=
    Path.exists_segmentsOf_sibling hsegments h.isName suffix
  have hclean : ∀ s ∈ before ++ [name], 0 ∉ s := fun s hs hmem =>
    hzero ((Path.exists_mem_segmentsOf_iff (by decide)).mp ⟨s, hsegments ▸ hs, hmem⟩)
  rw [← Path.exists_mem_segmentsOf_iff (by decide), hsibling]
  rintro ⟨s, hs, hmem⟩
  rcases List.mem_append.mp hs with hs | hs
  · exact hclean s (by rw [hbefore]; simp [hs]) hmem
  · rw [List.mem_singleton.mp hs] at hmem
    exact Path.notMem_siblingName (Path.fileName?_eq hsegments h.isName) suffix (Or.inl rfl)
      (hclean name (by simp)) hmem

end Places

section Outcomes

variable {path : Path} {session : Session}

/-- When the program cannot be read, nothing happens. -/
theorem instrument_of_readText_error {fault : SystemFault}
    (h : session.files.readText path = .error fault) :
    instrument path session = (.error (.source path fault), session) := by
  exact Action.bind_of_error (Action.readText_of_error h)

/-- When the program can be read, the draws are made and then it is a matter of making a file. -/
theorem instrument_of_readText_ok {source : String} (h : session.files.readText path = .ok source) :
    let ids := (HarnessIds.draw session.random).1
    let suffix := (Uuid.draw session.entropy).1
    let drawn := { session with
      random := (HarnessIds.draw session.random).2, entropy := (Uuid.draw session.entropy).2 }
    let rendered := (HarnessLayout.ofSource source ids).render
    let target := path.sibling suffix
    instrument path session
      = match session.files.create target (Text.bytesOf rendered.text) with
        | .ok files => (.ok ⟨target, ids, rendered.positions⟩, { drawn with files })
        | .error fault => (.error (.io fault), drawn) := by
  intro ids suffix drawn rendered target
  have hids : Action.draw HarnessIds.draw session
      = (.ok ids, { session with random := (HarnessIds.draw session.random).2 }) := rfl
  have hsuffix : Action.drawEntropy Uuid.draw
      { session with random := (HarnessIds.draw session.random).2 } = (.ok suffix, drawn) := rfl
  rw [instrument, Action.bind_of_ok (Action.readText_of_ok h), Action.bind_of_ok hids]
  change (Action.drawEntropy Uuid.draw >>= _) _ = _
  rw [Action.bind_of_ok hsuffix]
  cases hcreate : session.files.create target (Text.bytesOf rendered.text) with
  | ok files =>
    have hchange :
        Action.change (fun files => files.create target (Text.bytesOf rendered.text)) drawn
        = (.ok (), { drawn with files }) := Action.change_of_ok hcreate
    rw [Action.bind_of_ok hchange]
    rfl
  | error fault =>
    have hchange :
        Action.change (fun files => files.create target (Text.bytesOf rendered.text)) drawn
        = (.error (.io fault), drawn) := Action.change_of_error hcreate
    rw [Action.bind_of_error hchange]

/-- **Writing a harness is all or nothing.**  If the program cannot be read as text, the session
stays as it is.  Otherwise the draws are made, whatever comes of the rest, and either the file
is refused and no file is touched, or there is one file more: at the path of the record, which
led nowhere before, in the directory of the program, holding the rendering of what was read. -/
theorem instrument_all_or_nothing (path : Path) (session : Session) :
    (∀ fault, session.files.readText path = .error fault →
      instrument path session = (.error (.source path fault), session)) ∧
    ∀ source, session.files.readText path = .ok source →
      let ids := (HarnessIds.draw session.random).1
      let suffix := (Uuid.draw session.entropy).1
      let drawn := { session with
        random := (HarnessIds.draw session.random).2, entropy := (Uuid.draw session.entropy).2 }
      let rendered := (HarnessLayout.ofSource source ids).render
      let target := path.sibling suffix
      ∃ directory original, session.files.get? directory = some .directory ∧
        session.files.resolve path = .ok (directory ++ [original]) ∧
        let name := path.siblingName suffix
        (∀ fault, session.files.refusal? target directory name = some fault →
          instrument path session = (.error (.io fault), drawn)) ∧
        (session.files.refusal? target directory name = none →
          session.files.resolve target = .error .noEntry ∧
          ∃ files,
            instrument path session =
              (.ok ⟨target, ids, rendered.positions⟩, { drawn with files }) ∧
            session.files.Gains files (directory ++ [name]) (Text.bytesOf rendered.text) ∧
            files.resolve target = .ok (directory ++ [name]) ∧
            files.readText target = .ok rendered.text ∧
            ∀ other content, session.files.read other = .ok content →
              files.read other = .ok content) := by
  refine ⟨fun fault h => instrument_of_readText_error h, fun source h => ?_⟩
  intro ids suffix drawn rendered target
  obtain ⟨content, hread, -⟩ := FileTree.exists_read_of_readText h
  obtain ⟨directory, original, hleads, hcheck, hresolve, -⟩ := FileTree.exists_of_read hread
  have hzero := (FileTree.checkPath_eq_ok_iff.mp hcheck).1
  have hsibling := hleads.sibling suffix
  have hfree := hleads.zero_notMem_sibling hzero suffix
  have hinstrument := instrument_of_readText_ok h
  have hcreate := FileTree.create_eq hsibling hfree (Text.bytesOf rendered.text)
  refine ⟨directory, original, hleads.isDirectory, hresolve, fun fault hfault => ?_,
    fun hnone => ?_⟩
  · rw [hfault] at hcreate
    rw [hinstrument, hcreate]
  · rw [hnone] at hcreate
    obtain ⟨hlength, hshort, habsent, -⟩ := FileTree.of_refusal?_eq_none hnone
    have hasked : FileTree.checkPath target = .ok () :=
      FileTree.checkPath_eq_ok_iff.mpr ⟨hfree, hsibling.bytes_ne_nil, hlength⟩
    have hgains := FileTree.gains_insert (List.append_ne_nil_of_right_ne_nil directory
      (List.cons_ne_nil (path.siblingName suffix) [])) habsent (Text.bytesOf rendered.text)
    have hfound := (hgains.leadsTo hsibling).resolve_eq hasked hshort
    rw [hgains.present, if_neg (Option.some_ne_none _)] at hfound
    refine ⟨?_, _, ?_, hgains, hfound, ?_, fun other content => hgains.read⟩
    · rw [hsibling.resolve_eq hasked hshort, if_pos habsent]
    · rw [hinstrument, hcreate]
    · rw [FileTree.readText, FileTree.read_of_resolve hfound hgains.present]
      simp [bind, Except.bind, pure, Except.pure]

end Outcomes

end EngineFuzz
