import EngineFuzz.Proofs.HarnessPositions
import EngineFuzz.Proofs.RunCommand
import Mathlib
/-!
# What an engine is told

An engine learns about a harness from its arguments: it looks for the options that it knows,
reads the numbers among their values, and opens the file.  What it was told has to fit what it
finds there.

A value is everything behind the equals sign that ends the name of its option.  No name of an
option has an equals sign in it, so an option is never mistaken for another one whose name
begins like its own.

* `optionValue?`, `told?` — how an engine reads its arguments;
* `told?_option_cons` — an option that comes first is found;
* `told?_option_cons_of_ne` — other options are passed over;
* `told?_engineArguments` — what the arguments of a record tell;
* `engine_is_told_positions` — what an engine is told when a program is run, and what it finds.
-/

namespace EngineFuzz

open HarnessRecord (option)
open Text (linesOf lineAt?)

section Reading

/-- The value that an argument gives to an option, if it gives one. -/
def optionValue? (name argument : String) : Option String :=
  let lead := (option name "").toList
  if lead.isPrefixOf argument.toList then some (String.ofList (argument.toList.drop lead.length))
  else none

/-- The value that arguments give to an option; the first one counts. -/
def told? (name : String) (arguments : List String) : Option String :=
  arguments.findSome? (optionValue? name)

/-- The number that a text spells in decimal digits. -/
def decimal? (text : String) : Option Nat :=
  if text.toList ≠ [] ∧ ∀ c ∈ text.toList, c.isDigit = true then
    some (Nat.ofDigitChars 10 text.toList 0)
  else none

/-- The number that arguments give to an option. -/
def toldNumber? (name : String) (arguments : List String) : Option Nat :=
  (told? name arguments).bind decimal?

variable {name other value : String} {arguments : List String}

/-- The characters of an option. -/
theorem toList_option (name value : String) : (option name value).toList
    = "--fuzzingtool.".toList ++ (name.toList ++ '=' :: value.toList) := by
  have hequals : "=".toList = ['='] := by decide
  change ("--fuzzingtool." ++ name ++ "=" ++ value).toList = _
  simp only [String.toList_append, hequals, List.append_assoc, List.singleton_append]

/-- A name up to an equals sign begins no other name up to an equals sign. -/
theorem eq_of_append_isPrefixOf {first second rest : List Char} (hfirst : '=' ∉ first)
    (hsecond : '=' ∉ second) (h : first ++ ['='] <+: second ++ '=' :: rest) : first = second := by
  induction first generalizing second with
  | nil =>
    cases second with
    | nil => rfl
    | cons c cs =>
      obtain ⟨rfl, -⟩ := List.cons_prefix_cons.mp h
      exact absurd List.mem_cons_self hsecond
  | cons c cs ih =>
    cases second with
    | nil =>
      obtain ⟨rfl, -⟩ := List.cons_prefix_cons.mp h
      exact absurd List.mem_cons_self hfirst
    | cons d ds =>
      obtain ⟨rfl, hrest⟩ := List.cons_prefix_cons.mp h
      rw [ih (List.not_mem_of_not_mem_cons hfirst) (List.not_mem_of_not_mem_cons hsecond) hrest]

/-- An option gives its value to itself. -/
theorem optionValue?_option (name value : String) :
    optionValue? name (option name value) = some value := by
  have hlead : (option name value).toList = (option name "").toList ++ value.toList := by
    simp only [toList_option, String.toList_empty, List.append_assoc, List.cons_append,
      List.nil_append]
  have hprefix : (option name "").toList.isPrefixOf (option name value).toList = true := by
    rw [hlead, List.isPrefixOf_iff_prefix]
    exact List.prefix_append _ _
  simp only [optionValue?, hprefix, if_true]
  rw [hlead, List.drop_left, String.ofList_toList]

/-- An option gives no value to another one. -/
theorem optionValue?_option_of_ne (hname : '=' ∉ name.toList) (hother : '=' ∉ other.toList)
    (hne : name ≠ other) (value : String) : optionValue? name (option other value) = none := by
  have hno : ¬(option name "").toList.isPrefixOf (option other value).toList = true := by
    rw [List.isPrefixOf_iff_prefix, toList_option, toList_option, List.prefix_append_right_inj]
    intro hprefix
    exact hne (String.toList_inj.mp (eq_of_append_isPrefixOf hname hother hprefix))
  simp only [optionValue?, hno, if_false, Bool.false_eq_true]

/-- An option that comes first is found. -/
theorem told?_option_cons (name value : String) (arguments : List String) :
    told? name (option name value :: arguments) = some value := by
  rw [told?, List.findSome?_cons, optionValue?_option]

/-- Other options are passed over. -/
theorem told?_option_cons_of_ne (hname : '=' ∉ name.toList) (hother : '=' ∉ other.toList)
    (hne : name ≠ other) (value : String) (arguments : List String) :
    told? name (option other value :: arguments) = told? name arguments := by
  rw [told?, List.findSome?_cons, optionValue?_option_of_ne hname hother hne]
  rfl

/-- A number is read as it was written. -/
theorem decimal?_toString (n : Nat) : decimal? (toString n) = some n := by
  have hdigits : (toString n).toList = Nat.toDigits 10 n := Nat.toList_repr
  have hspelled : Nat.toDigits 10 n ≠ [] ∧ ∀ c ∈ Nat.toDigits 10 n, c.isDigit = true :=
    ⟨Nat.toDigits_ne_nil, fun c hc => Nat.isDigit_of_mem_toDigits (by decide) (by decide) hc⟩
  rw [decimal?, hdigits, if_pos hspelled, Nat.ofDigitChars_ten_toDigits]

/-- A number that is told is the one that was written. -/
theorem toldNumber?_of_told? {n : Nat} (h : told? name arguments = some (toString n)) :
    toldNumber? name arguments = some n := by
  rw [toldNumber?, h]
  exact decimal?_toString n

/-- **What the arguments of a record tell** are its positions and its markers. -/
theorem told?_engineArguments (record : HarnessRecord) (optionFile : Option Path) :
    let arguments := record.engineArguments optionFile
    toldNumber? "mainLoopLineNumber" arguments = some record.positions.loopLine ∧
      told? "mainLoopIdentString" arguments = some record.ids.loop.hyphenated ∧
      toldNumber? "errorLineNumber" arguments = some record.positions.faultLine ∧
      told? "errorIdentString" arguments = some record.ids.fault.hyphenated ∧
      toldNumber? "sourceCodeLineOffset" arguments = some record.positions.lineOffset := by
  intro arguments
  refine ⟨toldNumber?_of_told? ?_, ?_, toldNumber?_of_told? ?_, ?_, toldNumber?_of_told? ?_⟩
  -- every option stands behind some of other names
  all_goals
    unfold arguments HarnessRecord.engineArguments
    repeat rw [List.cons_append]
    repeat rw [told?_option_cons_of_ne (by decide) (by decide) (by decide)]
    rw [told?_option_cons]

end Reading

section Telling

/-- **What an engine is told fits what it is given.**  If nothing can be run no engine is
started.  Otherwise the engine is started once, with the arguments of its configuration and
those of the record, on files in which the program and the harness can be read; and the lines of
the harness that it is told about are the loop and the handler with the markers that it is told,
and between the offset and the handler stand the lines of the program and no others. -/
theorem engine_is_told_positions (engines : Engines) (seed : Option UInt64) (config : Path)
    (anew force : Bool) (session : Session) :
    let after := (Command.execute engines seed (.run config anew force) session).2
    (∀ error stopped, Command.prepareRun seed config anew force session = (.error error, stopped) →
      after.launches = session.launches) ∧
    ∀ loaded file ready,
      Command.prepareRun seed config anew force session = (.ok (loaded, file), ready) →
      Configures session.files config loaded.config ∧
      ∃ launch source text, after.launches = launch :: session.launches ∧
        launch.command = loaded.config.engine.command ∧
        launch.args = loaded.config.engine.args ++ file.record.engineArguments (some config) ∧
        launch.files.readText loaded.programPath = .ok source ∧
        launch.files.readText file.record.path = .ok text ∧
        ∃ loopLine loopId faultLine faultId offset,
          let arguments := launch.args.drop loaded.config.engine.args.length
          toldNumber? "mainLoopLineNumber" arguments = some loopLine ∧
          told? "mainLoopIdentString" arguments = some loopId ∧
          toldNumber? "errorLineNumber" arguments = some faultLine ∧
          told? "errorIdentString" arguments = some faultId ∧
          toldNumber? "sourceCodeLineOffset" arguments = some offset ∧
          lineAt? text loopLine = some (r"while (true) { //" ++ loopId) ∧
          (let caught := "ex_" ++ String.ofList (faultId.toList.filter (· ≠ '-'))
          lineAt? text faultLine = some (r"} catch (" ++ caught ++ r") { //" ++ faultId)) ∧
          faultLine = offset + (linesOf source).length + 1 ∧
          ((linesOf text).drop offset).take (faultLine - offset - 1) = linesOf source ∧
          ∀ k, 1 ≤ k → k ≤ (linesOf source).length →
            lineAt? text (offset + k) = lineAt? source k := by
  intro after
  have hprepares := Command.prepares_prepareRun seed config anew force session
  refine ⟨fun error stopped hstopped => Command.launches_run_of_error hstopped,
    fun loaded file ready hready => ?_⟩
  rw [hready] at hprepares
  obtain ⟨-, hfile, hconfigures, found, source, location, -, hwritten⟩ :=
    hprepares.prepared loaded file rfl
  have hplants : found.files.Plants file.record.path location _ ready.files := hwritten.plants
  have hargs : (Command.launchOf loaded file.record ready.files).args
      = loaded.config.engine.args ++ file.record.engineArguments (some config) := by
    rw [← hfile]
    rfl
  refine ⟨hconfigures, _, source, _, Command.launches_run_of_ok hready, rfl, hargs,
    hplants.readText_of_readText hwritten.read,
    hplants.admits_after.readText_eq hplants.get?_location, ?_⟩
  obtain ⟨hloopLine, hloopId, hfaultLine, hfaultId, hoffset⟩ :=
    told?_engineArguments file.record (some config)
  rw [hargs, List.drop_left]
  refine ⟨_, _, _, _, _, hloopLine, hloopId, hfaultLine, hfaultId, hoffset, ?_⟩
  rw [hwritten.positions]
  refine ⟨?_, ?_, ?_, ?_, ?_⟩
  · rw [← HarnessLayout.ofList_loopOpening]
    exact HarnessLayout.lineAt?_loopLine source file.record.ids
  · have hcaught : String.ofList (HarnessLayout.faultVariable file.record.ids)
        = "ex_" ++ String.ofList (file.record.ids.fault.hyphenated.toList.filter (· ≠ '-')) := by
      rw [HarnessLayout.ofList_faultVariable, Uuid.hyphenated, String.toList_ofList]
    have hhandler := HarnessLayout.lineAt?_faultLine source file.record.ids
    rw [HarnessLayout.ofList_faultOpening, hcaught] at hhandler
    exact hhandler
  · exact HarnessLayout.faultLine_eq source file.record.ids
  · exact HarnessLayout.take_drop_linesOf_text source file.record.ids
  · intro k hpos hle
    exact HarnessLayout.lineAt?_lineOffset_add source file.record.ids hpos hle

end Telling

end EngineFuzz
