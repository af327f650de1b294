import BuildFleet.Attempt
import BuildFleet.Failure
import BuildFleet.Machine
import BuildFleet.Mode

/-!
# Selection

The ids of the machines whose runner satisfies a mode: for each runner in order, those of its name,
in table order.  A runner's name is only read if the runner satisfies the mode and the table has an
entry to compare it with.  The first field that has to be read and is absent leaves no selection.
-/

namespace BuildFleet

namespace Selection

/-- The ids that one runner contributes. -/
def ofRunner (mode : Mode) (table : Table) (r : Runner) : Except RunnerField (List String) := do
  let selected ← mode.selects r
  if selected && !table.isEmpty then
    let name ← r.requireName
    .ok (table.idsNamed name)
  else
    .ok []

/-- The ids of runners of which the first has the given index. -/
def ofRunners (mode : Mode) (table : Table) : Nat → List Runner → Except Failure (List String)
  | _, [] => .ok []
  | index, r :: rest => do
    let ids ← (ofRunner mode table r).mapError (.missingRunnerField index)
    let more ← ofRunners mode table (index + 1) rest
    .ok (ids ++ more)

end Selection

/-- The selection of a mode among these runners. -/
def selection (mode : Mode) (runners : List Runner) (table : Table) :
    Except Failure (List String) :=
  Selection.ofRunners mode table 0 runners

/-- Makes a selection, and says so. -/
def select (mode : Mode) (runners : List Runner) (table : Table) :
    Attempt Failure (List String) := do
  let ids ← Attempt.ofExcept (selection mode runners table)
  Attempt.log [.selected mode ids.length runners.length]
  pure ids

end BuildFleet
