import BuildFleet.Machine.Loading
import BuildFleet.Output
import BuildFleet.Runner.Listing
import BuildFleet.Selection

/-!
# Runs

A run loads the table, reads the listing, selects, and writes the selected ids, one on a line.  The
stages follow each other: what goes wrong in one is the failure of the run, and nothing is written
before all runners have been looked at.
-/

namespace BuildFleet

/-- What a run finds around it. -/
structure Surroundings where
  files : Files
  stdin : Json.Input
  /-- The number of bytes that the standard output holds at most, if there is a limit. -/
  room : Option Nat := none

/-- Why a run failed, by the stage it failed in. -/
inductive RunFailure where
  | arguments (failure : Failure)
  | loadingTable (failure : Failure)
  | openingListing (path : String) (error : SystemError)
  | readingListing (failure : Failure)
  | selecting (failure : Failure)
  | writing (error : SystemError)
  deriving DecidableEq

namespace RunFailure

/-- What went wrong, from the stage down to the cause at its root. -/
def chain : RunFailure → List String
  | .arguments failure => failure.chain
  | .loadingTable failure => "Failed to load machine table" :: failure.chain
  | .openingListing path error => [s!"Failed to open runners document {path}", error.message]
  | .readingListing failure => "Failed to read runners document" :: failure.chain
  | .selecting failure => "Failed to select machines" :: failure.chain
  | .writing error => ["Failed to write machine ids", error.message]

def message (f : RunFailure) : String :=
  ": ".intercalate f.chain

/-- The failure of the stage itself, where it is not one of the system. -/
def failure? : RunFailure → Option Failure
  | .arguments failure | .loadingTable failure | .readingListing failure | .selecting failure =>
    some failure
  | .openingListing .. | .writing _ => none

end RunFailure

namespace Run

def loadTable (around : Surroundings) (settings : Settings) : Attempt RunFailure Table := do
  let table ← (settings.machines.load around.files).inContext .loadingTable
  Attempt.log [.tableLoaded table.size]
  pure table

def readListing (around : Surroundings) (settings : Settings) : Attempt RunFailure (List Runner) :=
  match settings.input with
  | .stdin => (Listing.read around.stdin).inContext .readingListing
  | .file path =>
    match around.files path with
    | .error error => .fail (.openingListing path error)
    | .ok input => (Listing.read input).inContext .readingListing

/-- An unrecognized mode is worth a warning. -/
def modeWarnings (mode : Mode) : List Event :=
  if mode.isRecognized then [] else [.modeUnrecognized mode]

/-- Writes the ids to the standard output.  What it has taken before it refuses more stays written. -/
def write (around : Surroundings) (ids : List String) : Attempt RunFailure Unit :=
  match Buffered.writeLines ids { sink := { room := around.room } } with
  | .ok () w => ⟨[], w.close, .ok ()⟩
  | .error error w => ⟨[], w.close, .error (.writing error)⟩

end Run

/-- A run with these settings. -/
def run (around : Surroundings) (settings : Settings) : Attempt RunFailure Unit := do
  let table ← Run.loadTable around settings
  let runners ← Run.readListing around settings
  Attempt.log (Run.modeWarnings settings.mode)
  let ids ← (select settings.mode runners table).inContext .selecting
  Run.write around ids

/-- The settings of the arguments, which have to name a mode. -/
def Arguments.settings (args : Arguments) : Except Failure Settings :=
  args.settings?.elim (.error (.missingArgument "MODE")) .ok

end BuildFleet
