import EngineFuzz.Proofs.HarnessScan
import EngineFuzz.Proofs.InstrumentCommand
import EngineFuzz.Proofs.JsonReading
import EngineFuzz.Proofs.SeedLine
/-!
# What printed documents say

Records of harnesses and lists of inputs are handed on as JSON texts.  Whoever reads such a text
gets what was written: the two spellings of a document differ in blanks only, a text is written
with an escape for each character that would end or break it, and a number is written with all
its digits.

The value of an input has no tag of its own in the document.  It needs none, because a truth
value and an integer are spelled in different ways.

* `Json.isCharacter_escaped`, `Json.isBody_flatMap_escaped` — texts are spelled so that they are
  read back;
* `Json.isValue_charsAt` — a document is a spelling of its value, at every depth and in both
  spacings;
* `Json.read?_written` — documents are read back;
* `Command.execute_instrument_eq_zero_iff`, `Command.execute_inputs_of_ok` — when documents are
  printed;
* `printed_documents_say` — records and inputs, from the commands that print them to their readers.
-/

namespace EngineFuzz

open Randomness
open Text (bytesOf)

namespace Json

mutual

/-- What a document says. -/
def value : Json → Value
  | .bool b => .bool b
  | .number n => .integer n
  | .text content => .text content
  | .array items => .array (valuesOf items)
  | .object fields => .object (namedValuesOf fields)

/-- What the items of an array say. -/
def valuesOf : List Json → List Value
  | [] => []
  | item :: items => item.value :: valuesOf items

/-- What the fields of an object say. -/
def namedValuesOf : List (String × Json) → List (String × Value)
  | [] => []
  | (name, json) :: fields => (name, json.value) :: namedValuesOf fields

end

section Spellings

/-- A control character is read back from its code point. -/
theorem hexNumeral?_controlDigits {c : Char} (h : c.toNat < 0x20) :
    Toml.hexNumeral? (controlDigits c) = some c.toNat := by
  have hall : ∀ n < 0x20, Toml.hexNumeral?
      ['0', '0', Nat.digitChar (n / 16), Nat.digitChar (n % 16)] = some n := by
    decide
  exact hall c.toNat h

/-- **What is written for a character is one of its spellings.** -/
theorem isCharacter_escaped (c : Char) : IsCharacter (escaped c) c := by
  unfold escaped
  split_ifs with hquote hbackslash hbackspace hformFeed hlineFeed hreturn htab hcontrol
  · subst hquote
    exact .letter (by decide)
  · subst hbackslash
    exact .letter (by decide)
  · subst hbackspace
    exact .letter (by decide)
  · subst hformFeed
    exact .letter (by decide)
  · subst hlineFeed
    exact .letter (by decide)
  · subst hreturn
    exact .letter (by decide)
  · subst htab
    exact .letter (by decide)
  · have hunit := hexNumeral?_controlDigits hcontrol
    have hspelling := IsCharacter.unit hunit (.inl (by omega))
    rwa [Char.ofNat_toNat] at hspelling
  · exact .plain (Nat.le_of_not_lt hcontrol) hquote hbackslash

/-- What is written for a text is one of its spellings. -/
theorem isBody_flatMap_escaped (cs : List Char) : IsBody (cs.flatMap escaped) cs := by
  induction cs with
  | nil => exact .nil
  | cons c cs ih =>
    rw [List.flatMap_cons]
    exact .cons (isCharacter_escaped c) ih

/-- The digits of a number are a spelling of it. -/
theorem isWord_digits (n : Nat) : IsWord (digits n) (.integer n) := by
  have hwhole : IsWhole (Nat.toDigits 10 n) := by
    refine ⟨⟨Nat.toDigits_ne_nil, fun c hc => ?_⟩, fun hzero => ?_⟩
    · exact Nat.isDigit_of_mem_toDigits (by decide) (by decide) hc
    · rcases Nat.eq_zero_or_pos n with rfl | hn
      · rfl
      · exact absurd hzero (Toml.head?_toDigits n hn)
  have hword := IsWord.integer false hwhole
  have hsigned : signed false (Nat.toDigits 10 n) = n := by
    simp [signed, Nat.ofDigitChars_ten_toDigits]
  rw [hsigned] at hword
  exact hword

/-- Nothing but blanks stands before an item. -/
theorem isBlanks_lineBreak (spacing : Spacing) (depth : Nat) :
    IsBlanks (spacing.lineBreak depth) := by
  intro c hc
  cases spacing with
  | compact => cases hc
  | spacious =>
    rcases List.mem_cons.mp hc with rfl | hc
    · decide
    · obtain rfl := List.eq_of_mem_replicate hc
      decide

end Spellings

section Documents

variable (spacing : Spacing) (depth : Nat)

/-- The cells of an array that is written at a depth. -/
def cellsOf (items : List Json) : List (Cell Value) :=
  items.map fun item => ⟨spacing.lineBreak depth, item.charsAt spacing depth, [], item.value⟩

/-- The cells of an object that is written at a depth. -/
def namedCellsOf (fields : List (String × Json)) : List (Cell (String × Value)) :=
  fields.map fun (name, json) =>
    ⟨spacing.lineBreak depth ++ (quoted name ++ spacing.colon), json.charsAt spacing depth, [],
      (name, json.value)⟩

variable {spacing depth}

/-- The items after the first are written as cells. -/
theorem itemsAt_eq (items : List Json) :
    itemsAt spacing depth items = (cellsOf spacing depth items).flatMap fun cell =>
      ',' :: cell.chars := by
  induction items with
  | nil => rfl
  | cons item items ih =>
    rw [itemsAt, ih]
    simp [cellsOf, Cell.chars]

/-- The items of an array are written as cells. -/
theorem joined_cellsOf (item : Json) (items : List Json) :
    Cell.joined (cellsOf spacing depth (item :: items)) =
      spacing.lineBreak depth ++ (item.charsAt spacing depth ++ itemsAt spacing depth items) := by
  rw [itemsAt_eq]
  refine (Cell.joined_cons _ _).trans ?_
  simp [cellsOf, Cell.chars]

/-- What is written for a text between quotation marks. -/
theorem quoted_eq (content : String) :
    quoted content = '"' :: (content.toList.flatMap escaped ++ ['"']) := rfl

/-- What stands before the value of a field is a label. -/
theorem isLabel_quoted (name : String) :
    IsLabel (spacing.lineBreak depth ++ (quoted name ++ spacing.colon)) name := by
  obtain ⟨behind, hcolon, hbehind⟩ : ∃ behind, spacing.colon = ':' :: behind ∧ IsBlanks behind := by
    cases spacing with
    | compact => exact ⟨[], rfl, by simp [IsBlanks]⟩
    | spacious => exact ⟨[' '], rfl, by simp [IsBlanks, isBlank]⟩
  refine ⟨_, _, [], behind, isBlanks_lineBreak spacing depth,
    isBody_flatMap_escaped _, by simp [IsBlanks], hbehind, ?_⟩
  rw [hcolon, quoted_eq]
  simp

/-- The fields after the first are written as cells. -/
theorem fieldsAt_eq (fields : List (String × Json)) :
    fieldsAt spacing depth fields =
      (namedCellsOf spacing depth fields).flatMap fun cell => ',' :: cell.chars := by
  induction fields with
  | nil => rfl
  | cons field fields ih =>
    obtain ⟨name, json⟩ := field
    rw [fieldsAt, ih]
    simp [namedCellsOf, Cell.chars]

/-- The fields of an object are written as cells. -/
theorem joined_namedCellsOf (name : String) (json : Json) (fields : List (String × Json)) :
    Cell.joined (namedCellsOf spacing depth ((name, json) :: fields)) =
      spacing.lineBreak depth ++ (quoted name ++ (spacing.colon ++
        (json.charsAt spacing depth ++ fieldsAt spacing depth fields))) := by
  rw [fieldsAt_eq]
  refine (Cell.joined_cons _ _).trans ?_
  simp [namedCellsOf, Cell.chars]

theorem entries_cellsOf (items : List Json) :
    (cellsOf spacing depth items).map Cell.entry = valuesOf items := by
  induction items with
  | nil => rfl
  | cons item items ih => exact congrArg (item.value :: ·) ih

theorem entries_namedCellsOf (fields : List (String × Json)) :
    (namedCellsOf spacing depth fields).map Cell.entry = namedValuesOf fields := by
  induction fields with
  | nil => rfl
  | cons field fields ih => exact congrArg ((field.1, field.2.value) :: ·) ih

variable (spacing) in
mutual

/-- **A document is a spelling of what it says**, at every depth and in both spacings. -/
theorem isValue_charsAt (depth : Nat) :
    (json : Json) → IsValue (json.charsAt spacing depth) json.value
  | .bool true => .word .truth
  | .bool false => .word .falsehood
  | .number n => .word (isWord_digits n)
  | .text content => by
    have htext := IsValue.text (isBody_flatMap_escaped content.toList)
    rw [String.ofList_toList] at htext
    exact htext
  | .array [] => @IsValue.array [] [] (by simp) (by simp [IsBlanks]) (by simp)
  | .array (item :: items) => by
    have hblanks : ∀ cell ∈ cellsOf spacing (depth + 1) (item :: items),
        IsBlanks cell.lead ∧ IsBlanks cell.trail := by
      intro cell hcell
      obtain ⟨item, -, rfl⟩ := List.mem_map.mp hcell
      exact ⟨isBlanks_lineBreak spacing (depth + 1), by simp [IsBlanks]⟩
    have harray := IsValue.array hblanks (isBlanks_lineBreak spacing depth)
      (isValue_of_mem_cellsOf (depth + 1) (item :: items))
    rw [joined_cellsOf, entries_cellsOf] at harray
    simpa [charsAt, value] using harray
  | .object [] => @IsValue.object [] [] (by simp) (by simp [IsBlanks]) (by simp)
  | .object ((name, json) :: fields) => by
    have hlabels : ∀ cell ∈ namedCellsOf spacing (depth + 1) ((name, json) :: fields),
        IsLabel cell.lead cell.entry.1 ∧ IsBlanks cell.trail := by
      intro cell hcell
      obtain ⟨field, -, rfl⟩ := List.mem_map.mp hcell
      exact ⟨isLabel_quoted field.1, by simp [IsBlanks]⟩
    have hobject := IsValue.object hlabels (isBlanks_lineBreak spacing depth)
      (isValue_of_mem_namedCellsOf (depth + 1) ((name, json) :: fields))
    rw [joined_namedCellsOf, entries_namedCellsOf] at hobject
    simpa [charsAt, value] using hobject

/-- So is each item of an array. -/
theorem isValue_of_mem_cellsOf (depth : Nat) : (items : List Json) →
    ∀ cell ∈ cellsOf spacing depth items, IsValue cell.spelling cell.entry
  | [] => fun _ hcell => nomatch hcell
  | item :: items =>
    List.forall_mem_cons.mpr ⟨isValue_charsAt depth item, isValue_of_mem_cellsOf depth items⟩

/-- And so is each field of an object. -/
theorem isValue_of_mem_namedCellsOf (depth : Nat) : (fields : List (String × Json)) →
    ∀ cell ∈ namedCellsOf spacing depth fields, IsValue cell.spelling cell.entry.2
  | [] => fun _ hcell => nomatch hcell
  | (_, json) :: fields =>
    List.forall_mem_cons.mpr ⟨isValue_charsAt depth json, isValue_of_mem_namedCellsOf depth fields⟩

end

end Documents

section Readers

/-- **A document is read back**, in both spacings and whatever blanks follow it. -/
theorem read?_written (json : Json) (spacing : Spacing) (after : List Char)
    (hafter : IsBlanks after) :
    read? (String.ofList (json.charsAt spacing 0 ++ after)) = some json.value := by
  refine read?_eq_some_iff.mpr ⟨[], json.charsAt spacing 0, after, ?_,
    isValue_charsAt spacing 0 json, hafter, ?_⟩
  · intro c hc
    cases hc
  · rw [String.toList_ofList, List.nil_append]

/-- Both spellings of a document are read back. -/
theorem read?_of_mem {json : Json} {text : String} (h : text ∈ [json.compact, json.spacious]) :
    read? text = some json.value := by
  have hread : ∀ spacing, read? (String.ofList (json.charsAt spacing 0)) = some json.value := by
    intro spacing
    have hwritten := read?_written json spacing [] fun _ hc => nomatch hc
    rwa [List.append_nil] at hwritten
  rcases List.mem_pair.mp h with rfl | rfl
  · exact hread .compact
  · exact hread .spacious

/-- A document that is printed is read back. -/
theorem read?_printed (json : Json) : read? (json.spacious ++ "\n") = some json.value := by
  have hwritten := read?_written json .spacious ['\n'] (by simp [IsBlanks, isBlank])
  rwa [String.ofList_append] at hwritten

end Readers

end Json

section Records

/-- What the record of a harness says if its path is a text. -/
def HarnessRecord.value (record : HarnessRecord) (name : String) : Json.Value :=
  .object
    [("path", .text name),
      ("loop_line", .integer record.positions.loopLine),
      ("loop_id", .text record.ids.loop.hyphenated),
      ("fault_line", .integer record.positions.faultLine),
      ("fault_id", .text record.ids.fault.hyphenated),
      ("line_offset", .integer record.positions.lineOffset)]

/-- A record whose path is a text is handed on as a document, and the document says it. -/
theorem HarnessRecord.exists_json {record : HarnessRecord} {name : String}
    (h : record.path = .ofString name) :
    ∃ json, record.json = .ok json ∧ json.value = record.value name := by
  have hstrict : Text.strict record.path.bytes = some name := by
    rw [h]
    exact Text.strict_bytesOf name
  exact ⟨_, HarnessRecord.json_of_strict hstrict, rfl⟩

/-- A path that is text is the path of that text. -/
theorem Path.eq_ofString_of_strict {path : Path} {name : String}
    (h : Text.strict path.bytes = some name) : path = .ofString name := by
  obtain ⟨bytes⟩ := path
  rw [Path.ofString, Text.bytesOf_of_strict h]

end Records

namespace Input

/-- A value says an input: it is an object of the line, the name, the type and the sample, and
the sample is the truth value or the integer that the input has. -/
def IsSaidBy (input : Input) (value : Json.Value) : Prop :=
  ∃ sample,
    value = .object
      [("line_num", .integer input.line), ("name", .text input.name),
        ("type", .text input.kind.text), ("sample", sample)] ∧
    (∀ b, sample = .bool b ↔ input.sample = .boolean b) ∧
    ∀ n : Nat, sample = .integer n ↔ input.sample = .integer n

/-- An object of an input whose sample is a truth value, or an integer, exactly as its type says. -/
def IsTyped (value : Json.Value) : Prop :=
  ∃ line name kind sample,
    value = .object [("line_num", line), ("name", name), ("type", .text kind), ("sample", sample)] ∧
    (kind = "BOOLEAN" ↔ ∃ b, sample = .bool b) ∧
    (kind = "INTEGER" ↔ ∃ n, sample = .integer n)

/-- A value says inputs: it lists them in order. -/
def AreSaidBy (inputs : List Input) (value : Json.Value) : Prop :=
  ∃ values, value = .object [("variables", .array values)] ∧ List.Forall₂ IsSaidBy inputs values

/-- A value lists objects whose samples are as their types say. -/
def AreTyped (value : Json.Value) : Prop :=
  ∃ values, value = .object [("variables", .array values)] ∧ ∀ value ∈ values, IsTyped value

/-- The object of an input says it. -/
theorem isSaidBy_value_json (input : Input) : input.IsSaidBy input.json.value := by
  refine ⟨input.sample.json.value, rfl, ?_⟩
  cases input.sample with
  | boolean b => simp [Sample.json, Json.value]
  | integer n => simp [Sample.json, Json.value]

/-- The object of an input with a value of its kind has a sample of its type. -/
theorem isTyped_value_json {input : Input} (h : input.sample.kind = input.kind) :
    IsTyped input.json.value := by
  refine ⟨_, _, input.kind.text, input.sample.json.value, rfl, ?_⟩
  rw [← h]
  cases input.sample with
  | boolean b => simp [Sample.kind, InputKind.text, Sample.json, Json.value]
  | integer n => simp [Sample.kind, InputKind.text, Sample.json, Json.value]

/-- The document of inputs says them. -/
theorem areSaidBy_value_document (inputs : List Input) :
    AreSaidBy inputs (document inputs).value := by
  refine ⟨Json.valuesOf (inputs.map json), rfl, ?_⟩
  induction inputs with
  | nil => exact .nil
  | cons input inputs ih => exact .cons input.isSaidBy_value_json ih

/-- The document of inputs with values of their kinds has samples of their types. -/
theorem areTyped_value_document {inputs : List Input}
    (h : ∀ input ∈ inputs, input.sample.kind = input.kind) : AreTyped (document inputs).value := by
  refine ⟨Json.valuesOf (inputs.map json), rfl, ?_⟩
  induction inputs with
  | nil => exact fun _ hmem => nomatch hmem
  | cons input inputs ih =>
    obtain ⟨hinput, hinputs⟩ := List.forall_mem_cons.mp h
    exact List.forall_mem_cons.mpr ⟨isTyped_value_json hinput, ih hinputs⟩

end Input

namespace Command

section Printing

variable {seed : Option UInt64} {file : Path} {session begun : Session}

/-- The command that prints inputs prints those of a program that can be read. -/
theorem execute_inputs_of_ok (engines : Engines) {source : String} (sampling : Sampling)
    (hbegin : beginWith seed session = (.ok (), begun))
    (hread : begun.files.readText file = .ok source) :
    let found := scan sampling source begun.random
    execute engines seed (.inputs file sampling) session
      = (0, { begun with
          random := found.2
          stdout := begun.stdout ++
            bytesOf ((Input.document found.1.inputs).spacious ++ "\n") }) := by
  intro found
  have hdiscover : discoverInputs file sampling begun
      = (.ok found.1.inputs, { begun with random := found.2 }) := by
    rw [discoverInputs, Action.bind_of_ok (Action.readText_of_ok hread)]
    rfl
  rw [execute, perform, performInputs, Action.bind_of_ok hbegin, Action.bind_of_ok hdiscover]
  simp only [Action.printLine, Action.write, List.append_nil]

/-- The command that writes a harness ends well if the harness is written and its path is text,
and only then. -/
theorem execute_instrument_eq_zero_iff {engines : Engines}
    (hbegin : beginWith seed session = (.ok (), begun)) :
    (execute engines seed (.instrument file) session).1 = 0 ↔
      ∃ record written name, EngineFuzz.instrument file begun = (.ok record, written) ∧
        record.path = .ofString name := by
  rw [execute_eq_zero_iff, perform]
  rcases instrument_cases file begun with
    ⟨error, drawn, hfail, -⟩ | ⟨record, written, -, -, hok, -⟩
  · rw [performInstrument_of_error hbegin hfail, hfail]
    constructor
    · intro hzero
      cases hzero
    · rintro ⟨record, written, name, hok, -⟩
      cases hok
  · constructor
    · intro hzero
      cases hstrict : Text.strict record.path.bytes with
      | some name => exact ⟨record, written, name, hok, Path.eq_ofString_of_strict hstrict⟩
      | none =>
        have hjson := HarnessRecord.json_of_strict_eq_none hstrict
        rw [performInstrument_of_json_error hbegin hok hjson] at hzero
        cases hzero
    · rintro ⟨found, left, name, hfound, hpath⟩
      obtain ⟨json, hjson, -⟩ := HarnessRecord.exists_json hpath
      rw [performInstrument_of_json hbegin hfound hjson]

end Printing

end Command

open Command in
/-- **What printed documents say.**  There is a reader that follows the grammar of JSON.  From
the record of a harness whose path is a text, whatever its characters, it gets one object with
the six fields of the record, from either spelling.  It gets the same from what is printed by
the command that writes a harness, which ends well exactly if a harness is written and its path
is text.  From the document of inputs the reader gets the inputs in order, and if each has a
value of its kind, then a sample is a truth value or an integer exactly as its type says.  From
what is printed for the inputs of any program that can be read, it gets these inputs, with such
samples. -/
theorem printed_documents_say :
    (∀ text value, Json.read? text = some value ↔ Json.Says text value) ∧
    (∀ name ids positions,
      let record : HarnessRecord := ⟨.ofString name, ids, positions⟩
      ∃ json, record.json = .ok json ∧
        ∀ text ∈ [json.compact, json.spacious], Json.read? text = some (record.value name)) ∧
    (∀ engines seed file session, ∃ begun, beginWith seed session = (.ok (), begun) ∧
      let ended := execute engines seed (.instrument file) session
      (ended.1 = 0 ↔ ∃ record written name, instrument file begun = (.ok record, written) ∧
        record.path = .ofString name) ∧
      ∀ record written name, instrument file begun = (.ok record, written) →
        record.path = .ofString name →
        ∃ printed, ended.2.stdout = session.stdout ++ bytesOf printed ∧
          Json.read? printed = some (record.value name)) ∧
    (∀ inputs, ∃ value, Input.AreSaidBy inputs value ∧
      ((∀ input ∈ inputs, input.sample.kind = input.kind) → Input.AreTyped value) ∧
      ∀ text ∈ [(Input.document inputs).compact, (Input.document inputs).spacious],
        Json.read? text = some value) ∧
    ∀ engines seed file sampling session, ∃ begun, beginWith seed session = (.ok (), begun) ∧
      ∀ source, session.files.readText file = .ok source →
        let found := scan sampling source begun.random
        let ended := execute engines seed (.inputs file sampling) session
        ended.1 = 0 ∧ ∃ printed value, ended.2.stdout = session.stdout ++ bytesOf printed ∧
          Json.read? printed = some value ∧ Input.AreSaidBy found.1.inputs value ∧
          Input.AreTyped value := by
  refine ⟨fun _ _ => Json.read?_eq_some_iff, ?record, ?instrument, ?inputs, ?discover⟩
  case record =>
    intro name ids positions record
    have hpath : record.path = .ofString name := rfl
    obtain ⟨json, hjson, hvalue⟩ := HarnessRecord.exists_json hpath
    refine ⟨json, hjson, fun text htext => ?_⟩
    rw [← hvalue]
    exact Json.read?_of_mem htext
  case instrument =>
    intro engines seed file session
    obtain ⟨fixed, entropy, -, hbegin⟩ := exists_beginWith seed session
    refine ⟨_, hbegin, execute_instrument_eq_zero_iff hbegin,
      fun record written name hok hpath => ?_⟩
    obtain ⟨json, hjson, hvalue⟩ := HarnessRecord.exists_json hpath
    have hstdout := stdout_instrument file { session with random := .ofSeed fixed, entropy }
    rw [hok] at hstdout
    refine ⟨json.spacious ++ "\n", ?_, ?_⟩
    · rw [stdout_execute, perform, performInstrument_of_json hbegin hok hjson]
      exact congrArg (· ++ _) hstdout
    · rw [← hvalue]
      exact json.read?_printed
  case inputs =>
    intro inputs
    exact ⟨_, Input.areSaidBy_value_document inputs, Input.areTyped_value_document,
      fun text htext => Json.read?_of_mem htext⟩
  case discover =>
    intro engines seed file sampling session
    obtain ⟨fixed, entropy, -, hbegin⟩ := exists_beginWith seed session
    refine ⟨_, hbegin, fun source hread => ?_⟩
    intro found ended
    have hended : ended = _ := execute_inputs_of_ok engines sampling hbegin hread
    rw [hended]
    exact ⟨rfl, _, _, rfl, Json.read?_printed _, Input.areSaidBy_value_document _,
      Input.areTyped_value_document fun _ => Discovery.kind_of_mem_scan⟩

end EngineFuzz
