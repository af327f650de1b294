import BuildFleet.Event

/-!
# Attempts

A computation that may fail, with what it leaves behind on its way: the events, in order, and the
text it has written.  Both are kept when it fails.
-/

namespace BuildFleet

/-- Events, a text written, and a value or an error. -/
structure Attempt (ε α : Type) where
  events : List Event
  output : String
  outcome : Except ε α

namespace Attempt

variable {ε ε' α β : Type}

/-- An outcome, and nothing else. -/
def ofExcept (outcome : Except ε α) : Attempt ε α :=
  ⟨[], "", outcome⟩

def fail (error : ε) : Attempt ε α :=
  ofExcept (.error error)

/-- Nothing but events. -/
def log (events : List Event) : Attempt ε Unit :=
  ⟨events, "", .ok ()⟩

/-- A second attempt after the first, if that succeeds. -/
def andThen (x : Attempt ε α) (f : α → Attempt ε β) : Attempt ε β :=
  match x.outcome with
  | .ok v =>
    let y := f v
    ⟨x.events ++ y.events, x.output ++ y.output, y.outcome⟩
  | .error error => ⟨x.events, x.output, .error error⟩

instance : Monad (Attempt ε) where
  pure v := ofExcept (.ok v)
  bind := andThen

/-- The same attempt, with its error put into a context. -/
def inContext (f : ε → ε') (x : Attempt ε α) : Attempt ε' α :=
  { x with outcome := x.outcome.mapError f }

end Attempt

end BuildFleet
