import EngineFuzz.Harness.Layout
import EngineFuzz.Json
import EngineFuzz.SystemFault
/-!
# Records of harnesses

A record says where a harness is and where in it the two markers and the program stand.  It is
all that others need in order to map an engine's output back to the program, and it is handed to
them in two forms: as a JSON object, and as options on the command line of an engine.
-/

namespace EngineFuzz

/-- A harness that was written to a file. -/
structure HarnessRecord where
  path : Path
  ids : HarnessIds
  positions : HarnessPositions
deriving DecidableEq, Repr

namespace HarnessRecord

/-- The record as an object.  A path that is not text has no place in one. -/
def json (record : HarnessRecord) : Except SystemFault Json :=
  match Text.strict record.path.bytes with
  | none => .error .pathNotText
  | some path =>
    .ok (.object
      [("path", .text path),
        ("loop_line", .number record.positions.loopLine),
        ("loop_id", .text record.ids.loop.hyphenated),
        ("fault_line", .number record.positions.faultLine),
        ("fault_id", .text record.ids.fault.hyphenated),
        ("line_offset", .number record.positions.lineOffset)])

/-- An option of the instrumentation inside an engine. -/
def option (name value : String) : String := "--fuzzingtool." ++ name ++ "=" ++ value

/-- The arguments that tell an engine about a harness; the last one is the harness. -/
def engineArguments (record : HarnessRecord) (optionFile : Option Path) : List String :=
  [option "mainLoopLineNumber" (toString record.positions.loopLine),
    option "mainLoopIdentString" record.ids.loop.hyphenated,
    option "errorLineNumber" (toString record.positions.faultLine),
    option "errorIdentString" record.ids.fault.hyphenated,
    option "sourceCodeLineOffset" (toString record.positions.lineOffset)] ++
  (optionFile.map fun file => option "optionFile" file.display).toList ++
  [record.path.display]

end HarnessRecord

end EngineFuzz
