import BuildFleet.Runner

/-!
# Modes

What a runner has to be for its machines to be selected.  A mode reads of a runner only what it
needs: the status first, and the busy flag only of a runner that is online.  An unrecognized mode
reads nothing and selects nothing.
-/

namespace BuildFleet

inductive Mode where
  /-- Online and idle. -/
  | onlineNotBusy
  /-- Online and running a job. -/
  | onlineBusy
  | online
  | offline
  /-- Any other word. -/
  | unrecognized (text : String)
  deriving DecidableEq

namespace Mode

def ofText (text : String) : Mode :=
  if text = "ONLINE_NBUSY" then .onlineNotBusy
  else if text = "ONLINE_BUSY" then .onlineBusy
  else if text = "ONLINE" then .online
  else if text = "OFFLINE" then .offline
  else .unrecognized text

def text : Mode → String
  | .onlineNotBusy => "ONLINE_NBUSY"
  | .onlineBusy => "ONLINE_BUSY"
  | .online => "ONLINE"
  | .offline => "OFFLINE"
  | .unrecognized text => text

def isRecognized : Mode → Bool
  | .unrecognized _ => false
  | _ => true

/-- The runner satisfies the mode, or lacks a field that has to be read to tell. -/
def selects (mode : Mode) (r : Runner) : Except RunnerField Bool :=
  match mode with
  | .onlineNotBusy => do
    if (← r.requireStatus).isOnline then
      let busy ← r.requireBusy
      .ok !busy
    else
      .ok false
  | .onlineBusy => do
    if (← r.requireStatus).isOnline then r.requireBusy else .ok false
  | .online => do
    let status ← r.requireStatus
    .ok status.isOnline
  | .offline => do
    let status ← r.requireStatus
    .ok status.isOffline
  | .unrecognized _ => .ok false

theorem text_ofText (text : String) : (ofText text).text = text := by
  unfold ofText
  split
  · simp [Mode.text, *]
  · split
    · simp [Mode.text, *]
    · split
      · simp [Mode.text, *]
      · split
        · simp [Mode.text, *]
        · rfl

end Mode

end BuildFleet
