import BuildFleet.FileTree
import BuildFleet.Machine.Reading
import BuildFleet.Settings

/-!
# Machines — where a table comes from

A table is loaded from a file, or is the one built in.
-/

namespace BuildFleet

namespace Table

/-- The table built in, as a JSON text. -/
def builtinText : String :=
  "[\n" ++
  "  \x7b \"name\": \"Ternoa-Build-Machine-0\", " ++
    "\"id\": \"14930b12-a780-4dd0-a131-069f5d6024bd\" \x7d,\n" ++
  "  \x7b \"name\": \"Ternoa-Build-Machine-1\", " ++
    "\"id\": \"bd7c96b0-bbb6-4796-977a-703256554787\" \x7d,\n" ++
  "  \x7b \"name\": \"Ternoa-Build-Machine-2\", " ++
    "\"id\": \"a1a60d32-19ce-47ee-8f40-635a925ba11d\" \x7d\n" ++
  "]\n"

def builtin : Attempt Failure Table :=
  read (.ofString builtinText)

/-- The table in a file. -/
def load (files : Files) (path : String) : Attempt Failure Table :=
  match files path with
  | .error error => .fail (.tableUnreadable path error)
  | .ok input => do
    Attempt.log [.tableOpened path]
    read input

end Table

/-- The table of a source. -/
def TableSource.load (files : Files) : TableSource → Attempt Failure Table
  | .builtin => Table.builtin
  | .file path => Table.load files path

end BuildFleet
