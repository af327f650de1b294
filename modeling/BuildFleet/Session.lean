import BuildFleet.Machine.Loading
import BuildFleet.Runner.Listing
import BuildFleet.Selection

/-!
# Sessions

A mode, a table and a list of runners that are set and edited one step at a time, and asked about in
between.  A step that fails leaves all three as they were.
-/

namespace BuildFleet

structure Session where
  mode : Mode
  table : Table
  runners : List Runner
  deriving DecidableEq

/-- Where the table of a session comes from. -/
inductive TableGiven where
  | builtin
  | built (machines : List Machine)
  | json (input : Json.Input)

/-- The table given, built as it is or read with its warnings. -/
def TableGiven.table : TableGiven → Attempt Failure Table
  | .builtin => Table.builtin
  | .built machines => pure ⟨machines⟩
  | .json input => Table.read input

namespace Session

/-- No mode, no machines, no runners. -/
def start : Session where
  mode := .ofText ""
  table := .empty
  runners := []

inductive Step where
  | setMode (mode : Mode)
  | setTable (given : TableGiven)
  | setRunners (input : Json.Input)
  | push (r : Runner)
  | replace (index : Nat) (r : Runner)
  | remove (index : Nat)
  | reverse
  | reset
  | askMatches
  | askNamed (name : String)
  | askSelection

/-- What a step answers. -/
inductive Answer where
  | mode (mode : Mode)
  | table (table : Table)
  | runners (runners : List Runner)
  | runner (r : Runner)
  | done
  | matched (results : List (Except RunnerField Bool))
  | ids (ids : List String)

/-- Why a step fails. -/
inductive StepFailure where
  | outOfRange
  | failed (failure : Failure)
  deriving DecidableEq

/-- The answer to a step, and the session after it. -/
def step (s : Session) : Step → Attempt StepFailure (Answer × Session)
  | .setMode mode => pure (.mode mode, { s with mode })
  | .setTable given => do
    let table ← given.table.inContext .failed
    pure (.table table, { s with table })
  | .setRunners input => do
    let runners ← (Listing.read input).inContext .failed
    pure (.runners runners, { s with runners })
  | .push r => pure (.done, { s with runners := s.runners ++ [r] })
  | .replace index r =>
    if index < s.runners.length then
      pure (.done, { s with runners := s.runners.set index r })
    else
      .fail .outOfRange
  | .remove index =>
    match s.runners[index]? with
    | some r => pure (.runner r, { s with runners := s.runners.eraseIdx index })
    | none => .fail .outOfRange
  | .reverse =>
    let runners := s.runners.reverse
    pure (.runners runners, { s with runners })
  | .reset => pure (.runners [], { s with runners := [] })
  | .askMatches => pure (.matched (s.runners.map s.mode.selects), s)
  | .askNamed name => pure (.ids (s.table.idsNamed name), s)
  | .askSelection => do
    let ids ← (select s.mode s.runners s.table).inContext .failed
    pure (.ids ids, s)

/-- The session after a step: the one it gives, or the same again. -/
def after (s : Session) (answer : Attempt StepFailure (Answer × Session)) : Session :=
  match answer.outcome with
  | .ok (_, next) => next
  | .error _ => s

/-- The answers to the steps one after the other, each with the session after it. -/
def steps (s : Session) : List Step → List (Attempt StepFailure (Answer × Session) × Session)
  | [] => []
  | next :: rest =>
    let answer := s.step next
    let later := s.after answer
    (answer, later) :: later.steps rest

end Session

end BuildFleet
