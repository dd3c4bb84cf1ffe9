import EngineFuzz.Shell.Tool.Columns
import EngineFuzz.Shell.Tool.Edit
import EngineFuzz.Shell.Tool.Files
import EngineFuzz.Shell.Tool.Lines
import EngineFuzz.Shell.Tool.Search
import EngineFuzz.Shell.Tool.Value
/-!
# The tools that there are

The tools that scripts can start, by name.  All of them stand in one directory.
-/

namespace EngineFuzz.Shell.Tool

open Text (Bytes)

/-- The tools by name. -/
def table : List (String × Utility) :=
  [("basename", basename), ("cat", cat), ("chmod", chmod), ("cmp", cmp),
    ("cp", transfer "cp" false), ("cut", cut), ("dirname", dirname), ("echo", Builtin.echo),
    ("egrep", grep true false), ("expr", expr), ("false", Builtin.idle 1),
    ("fgrep", grep false true), ("fold", fold), ("grep", grep false false), ("head", head),
    ("ls", ls), ("mkdir", mkdir), ("mv", transfer "mv" true), ("nl", nl), ("paste", paste),
    ("printf", Builtin.printf), ("pwd", Builtin.pwd), ("rev", rev), ("rm", rm), ("rmdir", rmdir),
    ("sed", sed), ("seq", seq), ("sleep", Builtin.idle 0), ("sort", sort),
    ("sync", Builtin.idle 0), ("tac", tac), ("tail", tail), ("tee", tee), ("test", Builtin.test),
    ("[", Builtin.bracket), ("touch", touch), ("tr", tr), ("true", Builtin.idle 0),
    ("uniq", uniq), ("wc", wc)]

/-- What the tool of a name does. -/
def named? (name : Bytes) : Option Utility :=
  (table.find? fun (known, _) => ascii known = name).map (·.2)

/-- The directories in which tools are found. -/
def directories : List String := ["/bin/", "/usr/bin/"]

/-- The name of the tool to which a path would lead. -/
def nameAt? (path : Bytes) : Option Bytes :=
  directories.findSome? fun directory => (ascii directory).isPrefixOf? path

end EngineFuzz.Shell.Tool
