import BuildFleet.Attempt
import BuildFleet.Failure
import BuildFleet.Json.Record
import BuildFleet.Machine
import BuildFleet.Uuid

/-!
# Machines — reading a table

A table is a JSON list of records of a name and an id, both required strings.  What it holds is kept
as it is; a table that looks like a mistake is only warned about: one without machines, an id that is
no UUID, a name that has occurred before.
-/

namespace BuildFleet

/-- The fields of a machine read so far. -/
structure PartialMachine where
  name : Option String := none
  id : Option String := none

/-- A machine has a name and an id. -/
def Machine.record : Json.Record PartialMachine Machine where
  name := "Machine"
  fields :=
    [⟨"name", Json.Reader.string.map fun name m => { m with name := some name }⟩,
     ⟨"id", Json.Reader.string.map fun id m => { m with id := some id }⟩]
  start := {}
  build m :=
    match m.name, m.id with
    | none, _ => .error "name"
    | some _, none => .error "id"
    | some name, some id => .ok ⟨name, id⟩

namespace Table

/-- The warnings about a machine, after those of the given names. -/
def machineWarnings (earlier : List String) (m : Machine) : List Event :=
  (if Uuid.isUuid m.id then [] else [.idNotUuid m.name m.id]) ++
    (if earlier.contains m.name then [.nameRepeated m.name] else [])

/-- The warnings about machines, in order, after those of the given names. -/
def warningsAfter (earlier : List String) : List Machine → List Event
  | [] => []
  | m :: rest => machineWarnings earlier m ++ warningsAfter (m.name :: earlier) rest

/-- The warnings about a table. -/
def warnings (t : Table) : List Event :=
  (if t.isEmpty then [.tableEmpty] else []) ++ warningsAfter [] t.machines

/-- The table that the input holds, with its warnings. -/
def read (input : Json.Input) : Attempt Failure Table :=
  match Machine.record.reader.list.parse input with
  | .ok machines => do
    Attempt.log (warnings ⟨machines⟩)
    pure ⟨machines⟩
  | .error error => .fail (.invalidTable error)

end Table

end BuildFleet
