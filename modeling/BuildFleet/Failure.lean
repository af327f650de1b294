import BuildFleet.Json.Fault
import BuildFleet.Runner

/-!
# Failures

Why there is no answer.  A failure may have a source, the error underneath, whose text its own
message repeats.
-/

namespace BuildFleet

inductive Failure where
  /-- An argument that is required was not given. -/
  | missingArgument (name : String)
  /-- The listing is no JSON text, or not of the right shape. -/
  | invalidListing (error : Json.Error)
  /-- The listing has no runners at all. -/
  | missingRunners
  /-- A runner lacks a field that has to be read. -/
  | missingRunnerField (index : Nat) (field : RunnerField)
  /-- The file of the table cannot be opened. -/
  | tableUnreadable (path : String) (error : SystemError)
  /-- The table is no JSON text, or not of the right shape. -/
  | invalidTable (error : Json.Error)
  deriving DecidableEq

namespace Failure

def message : Failure → String
  | .missingArgument name => s!"Missing required argument: {name}"
  | .invalidListing error => s!"Invalid runners document: {error.message}"
  | .missingRunners => "Runners document is missing field `runners`"
  | .missingRunnerField index field =>
    s!"Runner at index {index} is missing field `{field.key}`"
  | .tableUnreadable path error => s!"Failed to read machine table {path}: {error.message}"
  | .invalidTable error => s!"Invalid machine table: {error.message}"

/-- The text of the error underneath, if it is kept. -/
def source? : Failure → Option String
  | .invalidListing error => some error.message
  | .tableUnreadable _ error => some error.message
  | _ => none

/-- The message, and that of the source. -/
def chain (f : Failure) : List String :=
  f.message :: f.source?.toList

end Failure

end BuildFleet
