/-!
# Runners

A self-hosted build runner, as a listing reports it: a name, a connection status, and whether a job
is running.  Each of the three may be absent, and is missed only by who needs it.
-/

namespace BuildFleet

/-- A field of a runner. -/
inductive RunnerField where
  | name
  | status
  | busy
  deriving DecidableEq

/-- The key of a field. -/
def RunnerField.key : RunnerField → String
  | .name => "name"
  | .status => "status"
  | .busy => "busy"

/-- Whether a runner is connected. -/
inductive Status where
  | online
  | offline
  /-- Any other status, by its text. -/
  | other (text : String)
  deriving DecidableEq

namespace Status

def ofText (text : String) : Status :=
  if text = "online" then .online
  else if text = "offline" then .offline
  else .other text

def text : Status → String
  | .online => "online"
  | .offline => "offline"
  | .other text => text

def isOnline : Status → Bool
  | .online => true
  | _ => false

def isOffline : Status → Bool
  | .offline => true
  | _ => false

theorem text_ofText (text : String) : (ofText text).text = text := by
  unfold ofText
  split
  · simp [Status.text, *]
  · split
    · simp [Status.text, *]
    · rfl

end Status

/-- A runner, with the fields its entry has. -/
structure Runner where
  name : Option String := none
  status : Option Status := none
  busy : Option Bool := none
  deriving DecidableEq

namespace Runner

def requireName (r : Runner) : Except RunnerField String :=
  r.name.elim (.error .name) .ok

def requireStatus (r : Runner) : Except RunnerField Status :=
  r.status.elim (.error .status) .ok

def requireBusy (r : Runner) : Except RunnerField Bool :=
  r.busy.elim (.error .busy) .ok

end Runner

end BuildFleet
