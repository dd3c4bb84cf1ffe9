import EngineFuzz.Proofs.RunCommand
/-!
# The command that writes a harness

Whoever asks for a harness learns where it is from what the command prints.  Writing the harness
is all or nothing, but printing its record comes after it and may fail as well: a path has no
place in a record unless it is text.  The name of a harness always is text, so all depends on
the directory of the program.  In a directory that is not text a harness that was written is
never reported.

* `Text.isSome_strict_append` — whether bytes are text does not depend on a text behind them;
* `Path.isSome_strict_sibling_iff` — the path of a harness is text if the directory is, and only
  then;
* `isSome_strict_record_iff`, `HarnessRecord.json_of_strict` — whether the record of a harness
  can be printed;
* `instrument_command_ends` — what the command has done when it ends.
-/

namespace EngineFuzz

section Texts

open Text (Bytes strict bytesOf)

/-- The octets of two texts, one after the other. -/
theorem Text.bytesOf_append (first second : String) :
    bytesOf (first ++ second) = bytesOf first ++ bytesOf second := by
  simp [bytesOf]

/-- Bytes are text if they are valid. -/
theorem Text.isSome_strict_iff {bytes : Bytes} :
    (strict bytes).isSome ↔ ByteArray.IsValidUTF8 ⟨bytes.toArray⟩ := by
  rw [strict, String.fromUTF8?]
  split <;> simp_all

/-- Whether bytes are text does not depend on a text behind them. -/
theorem Text.isSome_strict_append (bytes : Bytes) (text : String) :
    (strict (bytes ++ bytesOf text)).isSome ↔ (strict bytes).isSome := by
  constructor
  · intro h
    obtain ⟨whole, hstrict⟩ := Option.isSome_iff_exists.mp h
    rw [Text.isSome_strict_iff]
    have hwhole : whole.toByteArray = ⟨bytes.toArray⟩ ++ text.toByteArray := by
      refine ByteArray.ext (Array.toList_inj.mp ?_)
      simpa [bytesOf] using bytesOf_of_strict hstrict
    generalize (⟨bytes.toArray⟩ : ByteArray) = first at hwhole ⊢
    have hsize : whole.utf8ByteSize = first.size + text.toByteArray.size := by
      rw [← String.size_toByteArray, hwhole, ByteArray.size_append]
    have hle : (⟨first.size⟩ : String.Pos.Raw) ≤ whole.rawEndPos := by
      simp [String.Pos.Raw.le_iff, hsize]
    -- a character begins where the text begins, so none goes on beyond the bytes
    have hvalid : String.Pos.Raw.IsValid whole ⟨first.size⟩ := by
      refine String.Pos.Raw.isValid_iff_isValidUTF8_extract_utf8ByteSize.mpr ⟨hle, ?_⟩
      rw [hsize, hwhole, ByteArray.extract_append_eq_right rfl rfl]
      exact text.isValidUTF8
    have hfirst := (String.Pos.Raw.isValid_iff_isValidUTF8_extract_zero.mp hvalid).2
    rwa [hwhole, ByteArray.extract_append_eq_left rfl] at hfirst
  · intro h
    obtain ⟨first, hfirst⟩ := Option.isSome_iff_exists.mp h
    rw [← bytesOf_of_strict hfirst, ← Text.bytesOf_append, Text.strict_bytesOf]
    rfl

end Texts

section Paths

open EngineFuzz.Path (segmentsOf IsName)
open Text (strict bytesOf)

variable {path : Path} {before : List Text.Bytes} {last : Text.Bytes}

/-- A path stands in a directory that is text. -/
def Path.IsInTextDirectory (path : Path) : Prop :=
  ∃ directory, path.parent? = some directory ∧ (strict directory.bytes).isSome

/-- The name of a harness is text. -/
theorem Path.exists_siblingName_eq (path : Path) (suffix : Uuid) :
    ∃ name, path.siblingName suffix = bytesOf name := by
  have hunder : (0x5f : UInt8) :: bytesOf suffix.hyphenated =
      bytesOf ("_" ++ suffix.hyphenated) := by
    rw [Text.bytesOf_append]
    rfl
  cases hextension : path.fileExtension? with
  | none =>
    refine ⟨Text.lossy (path.stem?.getD []) ++ ("_" ++ suffix.hyphenated), ?_⟩
    simp only [siblingName, hextension, List.append_nil, Text.bytesOf_append _ ("_" ++ _), ← hunder]
  | some extension =>
    have hdot : Path.dot :: bytesOf (Text.lossy extension) =
        bytesOf ("." ++ Text.lossy extension) := by
      rw [Text.bytesOf_append]
      rfl
    refine ⟨Text.lossy (path.stem?.getD []) ++ ("_" ++ suffix.hyphenated)
      ++ ("." ++ Text.lossy extension), ?_⟩
    simp only [siblingName, hextension, Text.bytesOf_append _ ("." ++ _),
      Text.bytesOf_append _ ("_" ++ _), ← hunder, ← hdot]

/-- **The path of a harness is text** if it stands in a directory that is text, and only then. -/
theorem Path.isSome_strict_sibling_iff (h : segmentsOf path.bytes = before ++ [last])
    (hlast : IsName last) (suffix : Uuid) :
    (strict (path.sibling suffix).bytes).isSome ↔ path.IsInTextDirectory := by
  obtain ⟨front, kept, -, hparent, -⟩ := exists_parent?_eq h hlast
  obtain ⟨name, hname⟩ := path.exists_siblingName_eq suffix
  have hnoslash : slash ∉ bytesOf name := by
    rw [← hname]
    refine notMem_siblingName (fileName?_eq h hlast) suffix (Or.inr rfl) ?_
    exact slash_notMem_of_mem_segmentsOf
      (h ▸ List.mem_append_right before (List.mem_singleton_self last))
  have hrelative := isAbsolute_of_notMem hnoslash
  have hslash : slash :: bytesOf name = bytesOf ("/" ++ name) := by
    rw [Text.bytesOf_append]
    rfl
  simp only [IsInTextDirectory, sibling, hparent, hname, join, hrelative,
    Bool.false_eq_true, if_false, Option.some.injEq, exists_eq_left']
  split
  · exact Text.isSome_strict_append _ name
  · rw [hslash]
    exact Text.isSome_strict_append _ _

end Paths

section Records

open Text (strict bytesOf)

variable {path : Path} {before after session : Session} {record : HarnessRecord}
    {source name : String}
  {location : Location}

/-- Writing a harness prints nothing. -/
theorem stdout_instrument (path : Path) (session : Session) :
    (instrument path session).2.stdout = session.stdout := by
  cases hread : session.files.readText path with
  | error fault => rw [instrument_of_readText_error hread]
  | ok source =>
    rw [instrument_of_readText_ok hread]
    split <;> rfl

/-- The path of a harness that was written leads to it. -/
theorem Instruments.resolve (h : Instruments path before after record source location) :
    after.files.resolve record.path = .ok location :=
  h.plants.admits_after.resolve_of_some h.plants.get?_location

/-- The path of a harness that was written is text if its program stands in a directory that is
text. -/
theorem isSome_strict_record_iff (h : instrument path session = (.ok record, after)) :
    (strict record.path.bytes).isSome ↔ path.IsInTextDirectory := by
  cases hread : session.files.readText path with
  | error fault =>
    rw [instrument_of_readText_error hread] at h
    cases (Prod.mk.inj h).1
  | ok source =>
    obtain ⟨content, hcontent, -⟩ := FileTree.exists_read_of_readText hread
    obtain ⟨directory, last, hleads, -⟩ := FileTree.exists_of_read hcontent
    obtain ⟨segments, hsegments, -⟩ := hleads.segments
    rw [instrument_of_readText_ok hread] at h
    split at h
    · obtain ⟨rfl⟩ := Except.ok.inj (Prod.mk.inj h).1
      exact Path.isSome_strict_sibling_iff hsegments hleads.isName _
    · cases (Prod.mk.inj h).1

/-- A record whose path is text says all there is to say about its harness. -/
theorem HarnessRecord.json_of_strict (h : strict record.path.bytes = some name) :
    record.json = .ok (.object
      [("path", .text name),
        ("loop_line", .number record.positions.loopLine),
        ("loop_id", .text record.ids.loop.hyphenated),
        ("fault_line", .number record.positions.faultLine),
        ("fault_id", .text record.ids.fault.hyphenated),
        ("line_offset", .number record.positions.lineOffset)]) := by
  rw [json, h]

/-- There is no record of a harness whose path is not text. -/
theorem HarnessRecord.json_of_strict_eq_none (h : strict record.path.bytes = none) :
    record.json = .error .pathNotText := by
  rw [json, h]

end Records

namespace Command

open Text (strict bytesOf)

section Reporting

variable {seed : Option UInt64} {file : Path} {session begun after : Session}
    {record : HarnessRecord}

/-- If no harness is written there is nothing to be reported. -/
theorem performInstrument_of_error {error : Error}
    (hbegin : beginWith seed session = (.ok (), begun))
    (h : EngineFuzz.instrument file begun = (.error error, after)) :
    performInstrument seed file session = (.error error, after) := by
  rw [performInstrument, Action.bind_of_ok hbegin]
  exact Action.bind_of_error h

/-- A harness that was written is reported if its record can be printed. -/
theorem performInstrument_of_json {json : Json} (hbegin : beginWith seed session = (.ok (), begun))
    (h : EngineFuzz.instrument file begun = (.ok record, after)) (hjson : record.json = .ok json) :
    performInstrument seed file session
      = (.ok (), { after with stdout := after.stdout ++ bytesOf (json.spacious ++ "\n") }) := by
  rw [performInstrument, Action.bind_of_ok hbegin]
  refine (Action.bind_of_ok h).trans ?_
  simp only [hjson, Action.printLine, Action.write, List.append_nil]

/-- Otherwise the harness has been written all the same. -/
theorem performInstrument_of_json_error {fault : SystemFault}
    (hbegin : beginWith seed session = (.ok (), begun))
    (h : EngineFuzz.instrument file begun = (.ok record, after))
    (hjson : record.json = .error fault) :
    performInstrument seed file session = (.error (.io fault), after) := by
  rw [performInstrument, Action.bind_of_ok hbegin]
  refine (Action.bind_of_ok h).trans ?_
  simp only [hjson]
  rfl

end Reporting

/-- Printing an error leaves the standard output alone. -/
theorem stdout_execute {engines : Engines} {seed : Option UInt64} {command : Command}
    {session : Session} : (execute engines seed command session).2.stdout
      = (command.perform engines seed session).2.stdout := by
  unfold execute
  split
  · rename_i after hdone
    rw [hdone]
  · rename_i error after hfail
    rw [hfail]

/-- **What the command has done when it ends.**  No engine is started.  If it succeeds there is
one file more, the program is in a directory that is text, and what is printed names the new
file and tells where the markers and the program stand in it.  If it fails nothing is printed;
and either no file has been touched, or the directory is not text and there is a harness in it
that nobody is told of.  So the command is all or nothing wherever paths are text, and a harness
is left behind nowhere else. -/
theorem instrument_command_ends (engines : Engines) (seed : Option UInt64) (file : Path)
    (session : Session) :
    let ended := execute engines seed (.instrument file) session
    let code := ended.1
    let after := ended.2
    after.launches = session.launches ∧
    (code = 0 → file.IsInTextDirectory ∧ ∃ record source location name,
      Instruments file session after record source location ∧
        after.files.resolve record.path = .ok location ∧
        Text.strict record.path.bytes = some name ∧
        after.stdout = session.stdout ++ Text.bytesOf ((Json.object
          [("path", .text name),
            ("loop_line", .number record.positions.loopLine),
            ("loop_id", .text record.ids.loop.hyphenated),
            ("fault_line", .number record.positions.faultLine),
            ("fault_id", .text record.ids.fault.hyphenated),
            ("line_offset", .number record.positions.lineOffset)]).spacious ++ "\n")) ∧
    (code ≠ 0 → after.stdout = session.stdout ∧
      (after.files = session.files ∨ ¬file.IsInTextDirectory ∧ ∃ record source location,
        Instruments file session after record source location ∧
          after.files.resolve record.path = .ok location)) := by
  intro ended code after
  have hcode : code = 0 ↔ _ := execute_eq_zero_iff
  have hfiles : after.files = _ := files_execute
  have hlaunches : after.launches = _ := launches_execute
  have hstdout : after.stdout = _ := stdout_execute
  simp only [perform] at hcode hfiles hlaunches hstdout
  obtain ⟨fixed, entropy, -, hbegin⟩ := exists_beginWith seed session
  have hprinted := stdout_instrument file { session with random := .ofSeed fixed, entropy }
  rcases instrument_cases file { session with random := .ofSeed fixed, entropy } with
    ⟨error, drawn, hfail, hsame, hnone⟩ | ⟨record, written, source, location, hok, hwrites⟩
  · rw [hfail] at hprinted
    rw [performInstrument_of_error hbegin hfail] at hcode hfiles hlaunches hstdout
    exact ⟨hlaunches.trans hnone, fun hzero => (by cases hcode.mp hzero),
      fun _ => ⟨hstdout.trans hprinted, Or.inl (hfiles.trans hsame)⟩⟩
  rw [hok] at hprinted
  have htext := isSome_strict_record_iff hok
  have hwritten : ∀ {left : Session}, left.files = written.files →
      left.launches = written.launches →
      Instruments file session left record source location := fun hleft hstarted =>
    ⟨hwrites.read, hwrites.positions, by rw [hleft]; exact hwrites.plants,
      hstarted.trans hwrites.launches⟩
  cases hstrict : strict record.path.bytes with
  | some name =>
    rw [performInstrument_of_json hbegin hok (HarnessRecord.json_of_strict hstrict)]
      at hcode hfiles hlaunches hstdout
    have hinstruments := hwritten hfiles hlaunches
    refine ⟨hinstruments.launches, fun _ => ⟨?_, record, source, location, name, hinstruments,
      hinstruments.resolve, hstrict, ?_⟩, fun hne => absurd (hcode.mpr rfl) hne⟩
    · rw [← htext, hstrict]
      rfl
    · rw [hstdout]
      exact congrArg (· ++ _) hprinted
  | none =>
    rw [performInstrument_of_json_error hbegin hok (HarnessRecord.json_of_strict_eq_none hstrict)]
      at hcode hfiles hlaunches hstdout
    have hinstruments := hwritten hfiles hlaunches
    refine ⟨hinstruments.launches, fun hzero => (by cases hcode.mp hzero), fun _ =>
      ⟨hstdout.trans hprinted, Or.inr ⟨?_, record, source, location, hinstruments,
        hinstruments.resolve⟩⟩⟩
    rw [← htext, hstrict]
    exact Bool.false_ne_true

/-- A program in a directory whose name is no text: the command fails, prints nothing, and there
is one file more. -/
theorem instrument_command_leaves_harness :
    let directory : Location := [Text.bytesOf "w", [0xff]]
    let program : Text.Bytes := Text.bytesOf "a.js"
    let files := ((FileTree.ofBase [Text.bytesOf "w"]).insert directory .directory).insert
      (directory ++ [program]) (.file (Text.bytesOf "f();"))
    let ended := execute (fun _ _ => .error .noEntry) (some 1)
      (.instrument ⟨0xff :: Path.slash :: program⟩) (Session.begin files (.listed []) (.listed []))
    ended.1 ≠ 0 ∧ ended.2.stdout = [] ∧
      ended.2.files.entries.length = files.entries.length + 1 := by
  decide +kernel

end Command

end EngineFuzz
