import BuildFleet.Attempt
import BuildFleet.Failure
import BuildFleet.Json.Record
import BuildFleet.Runner

/-!
# Runners — reading a listing

A listing is a JSON record with the field `runners`, a list of records of a name, a status and a busy
flag.  All of these may be absent or null, and other fields are passed over.  Only a listing without
`runners` is no listing.
-/

namespace BuildFleet

/-- A status is written as a string. -/
def Status.reader : Json.Reader Status :=
  Json.Reader.string.map Status.ofText

/-- The fields of a runner. -/
def Runner.record : Json.Record Runner Runner where
  name := "Runner"
  fields :=
    [⟨"name", Json.Reader.string.optional.map fun name r => { r with name }⟩,
     ⟨"status", Status.reader.optional.map fun status r => { r with status }⟩,
     ⟨"busy", Json.Reader.boolean.optional.map fun busy r => { r with busy }⟩]
  start := {}
  build := .ok

namespace Listing

/-- The runners of a listing, if it has any. -/
def record : Json.Record (Option (List Runner)) (Option (List Runner)) where
  name := "RawDocument"
  fields := [⟨"runners", Runner.record.reader.list.optional.map fun runners _ => runners⟩]
  start := none
  build := .ok

/-- The runners of the listing that the input holds. -/
def read (input : Json.Input) : Attempt Failure (List Runner) :=
  match record.reader.parse input with
  | .ok (some runners) => do
    Attempt.log [.listingParsed runners.length]
    pure runners
  | .ok none => .fail .missingRunners
  | .error error => .fail (.invalidListing error)

end Listing

end BuildFleet
