import BuildFleet.Json.Literal
import BuildFleet.Json.Number
import BuildFleet.Json.Text

/-!
# JSON — skipped values

The value of a member nobody asks for is passed over, whatever its size and depth.  The lists and
objects that are open around the place reached so far are kept in a list of frames, the innermost
first; the walk ends when a value is complete and no frame is open.
-/

namespace BuildFleet.Json

/-- A list or an object that has been opened. -/
inductive Frame where
  | list
  | object
  deriving DecidableEq

namespace Frame

def construct : Frame → Construct
  | list => .list
  | object => .object

def closing : Frame → UInt8
  | list => closeBracket
  | object => closeBrace

/-- What is wrong if neither a comma nor the end follows an element. -/
def missingComma : Frame → Cause
  | list => .expectedListCommaOrEnd
  | object => .expectedObjectCommaOrEnd

/-- The frame that a byte opens. -/
def opened? (b : UInt8) : Option Frame :=
  if b == openBracket then some list
  else if b == openBrace then some object
  else none

end Frame

/-- The rest after a colon. -/
def readColon (e : Ending) (bytes : Bytes) : Except Fault Bytes :=
  match skipBlanks bytes with
  | [] => .error (e.fault (.ended .object))
  | b :: rest =>
    if b == colon then .ok rest
    else .error ⟨.expectedColon, .peeked (rest.length + 1)⟩

/-- The rest after a key and its colon. -/
def skipKey (e : Ending) (bytes : Bytes) : Except Fault Bytes :=
  match skipBlanks bytes with
  | [] => .error (e.fault (.ended .object))
  | b :: rest =>
    if b == quote then do
      let rest ← skipText e rest
      readColon e rest
    else
      .error ⟨.keyMustBeString, .peeked (rest.length + 1)⟩

/-- Where the value of the next element begins. -/
def Frame.toValue (e : Ending) (frame : Frame) (bytes : Bytes) : Except Fault Bytes :=
  match frame with
  | .list => .ok bytes
  | .object => skipKey e bytes

/-- Where a walk stands: in front of a value, or after one. -/
inductive Stage where
  | value
  | after
  deriving DecidableEq

/-- The frames that are open once `frame` has been gone into, or past. -/
def Stage.frames (frame : Frame) (frames : List Frame) : Stage → List Frame
  | .value => frame :: frames
  | .after => frames

/-- Goes on after the opening of a frame: to its first element, or past its end. -/
def Frame.enter (e : Ending) (frame : Frame) (bytes : Bytes) : Except Fault (Stage × Bytes) :=
  match skipBlanks bytes with
  | [] => .error (e.fault (.ended frame.construct))
  | b :: rest =>
    if b == frame.closing then .ok (.after, rest)
    else do
      let rest ← frame.toValue e (b :: rest)
      .ok (.value, rest)

/-- Goes on after an element of a frame: to the next one, or past the end. -/
def Frame.advance (e : Ending) (frame : Frame) (bytes : Bytes) : Except Fault (Stage × Bytes) :=
  match skipBlanks bytes with
  | [] => .error (e.fault (.ended frame.construct))
  | b :: rest =>
    if b == comma then do
      let rest ← frame.toValue e rest
      .ok (.value, rest)
    else if b == frame.closing then
      .ok (.after, rest)
    else
      .error ⟨frame.missingComma, .peeked (rest.length + 1)⟩

/-- The rest after a value that is neither a list nor an object, and begins with `b`. -/
def skipScalar (e : Ending) (b : UInt8) (rest : Bytes) : Except Fault Bytes :=
  if b == letterN then readLetters e restOfNull rest
  else if b == letterT then readLetters e restOfTrue rest
  else if b == letterF then readLetters e restOfFalse rest
  else if b == minusSign then skipNumber e rest
  else if isDigit b then skipNumber e (b :: rest)
  else if b == quote then skipText e rest
  else .error ⟨.expectedValue, .peeked (rest.length + 1)⟩

theorem length_of_skipBlanks {bytes rest : Bytes} {b : UInt8}
    (h : skipBlanks bytes = b :: rest) : rest.length < bytes.length := by
  have hl := length_skipBlanks_le bytes
  rw [h] at hl
  exact hl

theorem length_of_readColon {e : Ending} {bytes rest : Bytes}
    (h : readColon e bytes = .ok rest) : rest.length < bytes.length := by
  unfold readColon at h
  split at h
  · cases h
  · rename_i hb
    split at h
    · cases h
      exact length_of_skipBlanks hb
    · cases h

theorem length_of_skipKey {e : Ending} {bytes rest : Bytes}
    (h : skipKey e bytes = .ok rest) : rest.length < bytes.length := by
  unfold skipKey at h
  split at h
  · cases h
  · rename_i hb
    split at h
    · obtain ⟨rest₁, h₁, h₂⟩ := bind_eq_ok.mp h
      exact Nat.lt_trans (length_of_readColon h₂)
        (Nat.lt_trans (length_of_skipText h₁) (length_of_skipBlanks hb))
    · cases h

theorem Frame.length_of_toValue {e : Ending} {frame : Frame} {bytes rest : Bytes}
    (h : frame.toValue e bytes = .ok rest) : rest.length ≤ bytes.length := by
  cases frame with
  | list =>
    cases h
    exact Nat.le_refl _
  | object => exact Nat.le_of_lt (length_of_skipKey h)

theorem Frame.length_of_enter {e : Ending} {frame : Frame} {bytes rest : Bytes} {stage : Stage}
    (h : frame.enter e bytes = .ok (stage, rest)) : rest.length ≤ bytes.length := by
  unfold Frame.enter at h
  split at h
  · cases h
  · rename_i hb
    have hl := length_of_skipBlanks hb
    split at h
    · cases h
      exact Nat.le_of_lt hl
    · obtain ⟨rest₁, h₁, h₂⟩ := bind_eq_ok.mp h
      cases h₂
      exact Nat.le_trans (Frame.length_of_toValue h₁) hl

theorem Frame.length_of_advance {e : Ending} {frame : Frame} {bytes rest : Bytes} {stage : Stage}
    (h : frame.advance e bytes = .ok (stage, rest)) : rest.length < bytes.length := by
  unfold Frame.advance at h
  split at h
  · cases h
  · rename_i hb
    have hl := length_of_skipBlanks hb
    split at h
    · obtain ⟨rest₁, h₁, h₂⟩ := bind_eq_ok.mp h
      cases h₂
      exact Nat.lt_of_le_of_lt (Frame.length_of_toValue h₁) hl
    · split at h
      · cases h
        exact hl
      · cases h

theorem length_of_skipScalar {e : Ending} {b : UInt8} {rest rest' : Bytes}
    (h : skipScalar e b rest = .ok rest') : rest'.length ≤ rest.length := by
  unfold skipScalar at h
  split at h
  · exact length_of_readLetters h
  · split at h
    · exact length_of_readLetters h
    · split at h
      · exact length_of_readLetters h
      · split at h
        · exact Nat.le_of_lt (length_of_skipNumber h)
        · split at h
          · exact Nat.le_of_lt_succ (length_of_skipNumber h)
          · split at h
            · exact Nat.le_of_lt (length_of_skipText h)
            · cases h

/-- The rest after the frames that are open, of which the innermost is at the given stage. -/
def skipFrames (e : Ending) (stage : Stage) (frames : List Frame) (bytes : Bytes) :
    Except Fault Bytes :=
  match stage with
  | .value =>
    match _hb : skipBlanks bytes with
    | [] => .error (e.fault (.ended .value))
    | b :: rest =>
      match Frame.opened? b with
      | some frame =>
        match _h : frame.enter e rest with
        | .error fault => .error fault
        | .ok (.value, rest) => skipFrames e .value (frame :: frames) rest
        | .ok (.after, rest) => skipFrames e .after frames rest
      | none =>
        match _h : skipScalar e b rest with
        | .error fault => .error fault
        | .ok rest => skipFrames e .after frames rest
  | .after =>
    match frames with
    | [] => .ok bytes
    | frame :: frames =>
      match _h : frame.advance e bytes with
      | .error fault => .error fault
      | .ok (.value, rest) => skipFrames e .value (frame :: frames) rest
      | .ok (.after, rest) => skipFrames e .after frames rest
termination_by bytes.length
decreasing_by
  · exact Nat.lt_of_le_of_lt (Frame.length_of_enter _h) (length_of_skipBlanks _hb)
  · exact Nat.lt_of_le_of_lt (Frame.length_of_enter _h) (length_of_skipBlanks _hb)
  · exact Nat.lt_of_le_of_lt (length_of_skipScalar _h) (length_of_skipBlanks _hb)
  · exact Frame.length_of_advance _h
  · exact Frame.length_of_advance _h

/-- The rest after one value of any kind. -/
def skipValue (e : Ending) (bytes : Bytes) : Except Fault Bytes :=
  skipFrames e .value [] bytes

/-! One turn of the walk, as a chain of steps with the rest of it as the last of them. -/

theorem skipFrames_value (e : Ending) (frames : List Frame) (bytes : Bytes) :
    skipFrames e .value frames bytes =
      match skipBlanks bytes with
      | [] => .error (e.fault (.ended .value))
      | b :: rest =>
        match Frame.opened? b with
        | some frame =>
          frame.enter e rest >>= fun (stage, rest) =>
            skipFrames e stage (stage.frames frame frames) rest
        | none => skipScalar e b rest >>= skipFrames e .after frames := by
  rw [skipFrames]
  split
  · rename_i hb
    rw [hb]
  · rename_i b rest hb
    rw [hb]
    dsimp only
    cases ho : Frame.opened? b with
    | none =>
      dsimp only
      split <;> (rename_i h; rw [h]; rfl)
    | some frame =>
      dsimp only
      split <;> (rename_i h; rw [h]; rfl)

theorem skipFrames_after (e : Ending) (frame : Frame) (frames : List Frame) (bytes : Bytes) :
    skipFrames e .after (frame :: frames) bytes =
      frame.advance e bytes >>= fun (stage, rest) =>
        skipFrames e stage (stage.frames frame frames) rest := by
  rw [skipFrames]
  split <;> (rename_i h; rw [h]; rfl)

theorem length_of_skipFrames {e : Ending} {stage : Stage} {frames : List Frame}
    {bytes rest : Bytes} (h : skipFrames e stage frames bytes = .ok rest) :
    rest.length ≤ bytes.length := by
  fun_induction skipFrames e stage frames bytes with
  | case1 | case2 | case5 | case8 => cases h
  | case3 frames bytes b rest' hb frame _ rest'' hent ih =>
    exact Nat.le_trans (ih h) (Nat.le_of_lt
      (Nat.lt_of_le_of_lt (Frame.length_of_enter hent) (length_of_skipBlanks hb)))
  | case4 frames bytes b rest' hb frame _ rest'' hent ih =>
    exact Nat.le_trans (ih h) (Nat.le_of_lt
      (Nat.lt_of_le_of_lt (Frame.length_of_enter hent) (length_of_skipBlanks hb)))
  | case6 frames bytes b rest' hb _ rest'' hsc ih =>
    exact Nat.le_trans (ih h) (Nat.le_of_lt
      (Nat.lt_of_le_of_lt (length_of_skipScalar hsc) (length_of_skipBlanks hb)))
  | case7 =>
    cases h
    exact Nat.le_refl _
  | case9 bytes frame frames rest' hadv ih =>
    exact Nat.le_trans (ih h) (Nat.le_of_lt (Frame.length_of_advance hadv))
  | case10 bytes frame frames rest' hadv ih =>
    exact Nat.le_trans (ih h) (Nat.le_of_lt (Frame.length_of_advance hadv))

end BuildFleet.Json
