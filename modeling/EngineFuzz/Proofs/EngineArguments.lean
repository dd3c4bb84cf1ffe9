import EngineFuzz.Proofs.EngineOptions
import EngineFuzz.Proofs.InstrumentCommand
/-!
# What the arguments of an engine determine

The arguments tell an engine all that a record holds: numbers are written in decimal,
identifiers in digits, and whether there is an option file shows in how many arguments there
are.  Each of these can be read back, so two records with the same arguments have the same
markers and the same positions.

Paths are the exception.  They are octets, and arguments are texts.  A path that is text is
written as it is; of any other path a repaired form is written, which another path may share,
and which as a path leads somewhere else.  So the last argument is the harness exactly if the
path of the harness is text.

* `Path.IsText`, `Path.ofString_display_iff` — paths that survive being written as text;
* `HarnessRecord.option_injective` — an option determines its value;
* `HarnessRecord.engineArguments_eq_iff` — when two records have the same arguments;
* `engineArguments_determine` — what the arguments determine, and what they do not.
-/

namespace EngineFuzz

open HarnessRecord (option)

/-- The octets of a path are those of a text. -/
def Path.IsText (path : Path) : Prop := (Text.strict path.bytes).isSome

namespace Path

variable {path other : Path}

/-- A path that is text is written as it is, and no other is. -/
theorem ofString_display_iff : ofString path.display = path ↔ path.IsText := by
  rw [IsText, ← Text.bytesOf_lossy_iff]
  exact ⟨congrArg bytes, congrArg mk⟩

/-- Paths that are text are told apart by how they are written. -/
theorem display_eq_iff (h : path.IsText) (hother : other.IsText) :
    path.display = other.display ↔ path = other := by
  constructor
  · intro heq
    rw [← ofString_display_iff.mpr h, heq, ofString_display_iff.mpr hother]
  · exact congrArg display

end Path

namespace HarnessRecord

/-- An option determines its value. -/
theorem option_injective (name : String) : Function.Injective (option name) := by
  intro value other h
  have hchars : (option name value).toList = (option name other).toList := congrArg String.toList h
  rw [toList_option, toList_option] at hchars
  have hvalues := List.append_cancel_left (List.append_cancel_left hchars)
  exact String.toList_inj.mp (List.cons.inj hvalues).2

/-- A number is determined by its digits. -/
theorem eq_of_toString_eq {n m : Nat} (h : toString n = toString m) : n = m := by
  have hread : decimal? (toString n) = decimal? (toString m) := congrArg decimal? h
  rw [decimal?_toString, decimal?_toString] at hread
  exact Option.some.inj hread

variable {record other : HarnessRecord} {file otherFile : Option Path}

/-- The arguments that are there with an option file and without one. -/
theorem take_engineArguments (record : HarnessRecord) (file : Option Path) :
    (record.engineArguments file).take 5 =
      [option "mainLoopLineNumber" (toString record.positions.loopLine),
        option "mainLoopIdentString" record.ids.loop.hyphenated,
        option "errorLineNumber" (toString record.positions.faultLine),
        option "errorIdentString" record.ids.fault.hyphenated,
        option "sourceCodeLineOffset" (toString record.positions.lineOffset)] := rfl

/-- Behind them stand the option file, if there is one, and the harness. -/
theorem drop_engineArguments (record : HarnessRecord) (file : Option Path) :
    (record.engineArguments file).drop 5 =
      (file.map fun path => option "optionFile" path.display).toList ++ [record.path.display] := rfl

/-- **Records have the same arguments** exactly if they agree in their markers and their
positions, and their paths and option files are written alike. -/
theorem engineArguments_eq_iff :
    record.engineArguments file = other.engineArguments otherFile ↔
      record.ids = other.ids ∧ record.positions = other.positions ∧
        record.path.display = other.path.display ∧
        file.map Path.display = otherFile.map Path.display := by
  constructor
  · intro h
    have hfront := congrArg (List.take 5) h
    have hback := congrArg (List.drop 5) h
    rw [take_engineArguments, take_engineArguments] at hfront
    rw [drop_engineArguments, drop_engineArguments] at hback
    obtain ⟨hloopLine, hfront⟩ := List.cons.inj hfront
    obtain ⟨hloop, hfront⟩ := List.cons.inj hfront
    obtain ⟨hfaultLine, hfront⟩ := List.cons.inj hfront
    obtain ⟨hfault, hfront⟩ := List.cons.inj hfront
    obtain ⟨hoffset, -⟩ := List.cons.inj hfront
    have hloopLine := eq_of_toString_eq (option_injective _ hloopLine)
    have hloop := Uuid.hyphenated_injective (option_injective _ hloop)
    have hfaultLine := eq_of_toString_eq (option_injective _ hfaultLine)
    have hfault := Uuid.hyphenated_injective (option_injective _ hfault)
    have hoffset := eq_of_toString_eq (option_injective _ hoffset)
    obtain ⟨hfiles, hpath⟩ := List.append_inj' hback rfl
    refine ⟨?_, ?_, (List.cons.inj hpath).1, ?_⟩
    · exact (HarnessIds.mk.injEq _ _ _ _).mpr ⟨hloop, hfault⟩
    · exact (HarnessPositions.mk.injEq _ _ _ _ _ _).mpr ⟨hloopLine, hfaultLine, hoffset⟩
    · have hfiles := congrArg List.head? hfiles
      rw [Option.head?_toList, Option.head?_toList] at hfiles
      refine Option.map_injective (option_injective "optionFile") ?_
      rw [Option.map_map, Option.map_map]
      exact hfiles
  · rintro ⟨hids, hpositions, hpath, hfile⟩
    have hfiles : file.map (fun path => option "optionFile" path.display) =
        otherFile.map fun path => option "optionFile" path.display := by
      have hmapped := congrArg (Option.map (option "optionFile")) hfile
      rwa [Option.map_map, Option.map_map] at hmapped
    rw [engineArguments, engineArguments, hids, hpositions, hpath, hfiles]

end HarnessRecord

/-- **What the arguments determine.**  Two records with option files have the same arguments
exactly if they agree in markers and positions, both have an option file or none, and their
paths are written alike; paths that are text are written alike only if they are the same.  The
last argument, taken as a path, is the harness exactly if the path of the harness is text. -/
theorem engineArguments_determine (record other : HarnessRecord) (file otherFile : Option Path) :
    (record.engineArguments file = other.engineArguments otherFile ↔
      record.ids = other.ids ∧ record.positions = other.positions ∧
        record.path.display = other.path.display ∧
        file.map Path.display = otherFile.map Path.display) ∧
    (∀ first second : Path, first.IsText → second.IsText →
      (first.display = second.display ↔ first = second)) ∧
    ((record.engineArguments file).getLast?.map Path.ofString = some record.path ↔
      record.path.IsText) := by
  have hlast : (record.engineArguments file).getLast? = some record.path.display :=
    List.getLast?_concat
  refine ⟨HarnessRecord.engineArguments_eq_iff, fun first second => Path.display_eq_iff, ?_⟩
  rw [hlast, Option.map_some, Option.some_inj]
  exact Path.ofString_display_iff

/-- Two harnesses in directories whose names are no texts: an engine is told the same about
both, and the path that it is given is neither of the two. -/
theorem engineArguments_confuse_directories :
    let ids : HarnessIds := ⟨⟨Vector.replicate 16 0⟩, ⟨Vector.replicate 16 1⟩⟩
    let record : HarnessRecord := ⟨⟨0xff :: Text.bytesOf "/a.js"⟩, ids, ⟨1, 5, 3⟩⟩
    let other : HarnessRecord := ⟨⟨0xfe :: Text.bytesOf "/a.js"⟩, ids, ⟨1, 5, 3⟩⟩
    record.engineArguments none = other.engineArguments none ∧ record.path ≠ other.path ∧
      (record.engineArguments none).getLast?.map Path.ofString ≠ some record.path ∧
      (other.engineArguments none).getLast?.map Path.ofString ≠ some other.path := by
  decide +kernel

end EngineFuzz
