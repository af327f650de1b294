import BuildFleet.Json.Fault
import BuildFleet.Text.Utf8

/-!
# JSON — inputs

The bytes of an input may end because there are no more, or because asking for more fails.  The second is
an `Ending` of its own: wherever something is looked for beyond the last byte, the failure is found
instead.
-/

namespace BuildFleet.Json

/-- What happens when more is asked for after the last byte.  A stream that fails does so whenever it is
asked again; a read that was only interrupted is made once more by whoever delivers the bytes, and is no
failure. -/
inductive Ending where
  | closed
  | failing (error : SystemError)
  deriving DecidableEq

/-- The fault at the end of the bytes, where `cause` is wrong with their ending there. -/
def Ending.fault (e : Ending) (cause : Cause) : Fault :=
  match e with
  | .closed => ⟨cause, .consumed 0⟩
  | .failing error => ⟨.io error, .consumed 0⟩

/-- Looks at the next byte, where the end of the bytes is as good as any. -/
def Ending.look (e : Ending) (bytes : Bytes) : Except Fault Bytes :=
  match e, bytes with
  | .failing error, [] => .error ⟨.io error, .consumed 0⟩
  | _, bytes => .ok bytes

theorem Ending.look_eq_ok {e : Ending} {bytes rest : Bytes} (h : e.look bytes = .ok rest) :
    rest = bytes := by
  unfold Ending.look at h
  split at h
  · cases h
  · exact (Except.ok.inj h).symm

/-- Bytes, how they are delivered, and how they end. -/
structure Input where
  bytes : Bytes
  delivery : Delivery
  ending : Ending
  deriving DecidableEq

namespace Input

/-- A text in memory. -/
def ofString (s : String) : Input :=
  ⟨Text.Utf8.encode s, .text, .closed⟩

/-- A stream that ends after these bytes. -/
def ofBytes (bytes : Bytes) : Input :=
  ⟨bytes, .stream, .closed⟩

/-- A stream that fails after these bytes. -/
def failingAfter (bytes : Bytes) (error : SystemError) : Input :=
  ⟨bytes, .stream, .failing error⟩

end Input

/-! ### Blanks and chains of steps -/

def skipBlanks (bytes : Bytes) : Bytes :=
  bytes.dropWhile isBlank

theorem length_skipBlanks_le (bytes : Bytes) : (skipBlanks bytes).length ≤ bytes.length :=
  (List.dropWhile_sublist _).length_le

/-- A chain of two steps succeeds exactly if both do. -/
theorem bind_eq_ok {ε α β : Type} {x : Except ε α} {f : α → Except ε β} {b : β} :
    x >>= f = .ok b ↔ ∃ a, x = .ok a ∧ f a = .ok b := by
  cases x with
  | error _ => simp [bind, Except.bind]
  | ok _ => simp [bind, Except.bind]

end BuildFleet.Json
