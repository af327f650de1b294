import BuildFleet.Json.Parser.Number
import BuildFleet.Json.Skip
import BuildFleet.Json.Source

/-!
# JSON — parsers that skip values

A value that nobody asks for is passed over in turns, with the lists and objects that are open around the
place kept in a list of frames.
-/

namespace BuildFleet.Json.Parser

variable {σ : Type} [Source σ]

def takeColon : Parser σ Unit :=
  behindBlanks (.ended .object) fun b => if b == colon then skip else failPeeked .expectedColon

/-- Passes over a key and its colon. -/
def skipKey : Parser σ Unit :=
  behindBlanks (.ended .object) fun b =>
    if b == quote then do
      skip
      Source.skipText
      takeColon
    else
      failPeeked .keyMustBeString

/-- Goes to where the value of the next element begins. -/
def toValue (frame : Frame) : Parser σ Unit :=
  match frame with
  | .list => pure ()
  | .object => skipKey

/-- Goes on after the opening of a frame: to its first element, or past its end. -/
def enter (frame : Frame) : Parser σ Stage :=
  behindBlanks (.ended frame.construct) fun b =>
    if b == frame.closing then do
      skip
      pure .after
    else do
      toValue frame
      pure .value

/-- Goes on after an element of a frame: to the next one, or past the end. -/
def advance (frame : Frame) : Parser σ Stage :=
  behindBlanks (.ended frame.construct) fun b =>
    if b == comma then do
      skip
      toValue frame
      pure .value
    else if b == frame.closing then do
      skip
      pure .after
    else
      failPeeked frame.missingComma

/-- Passes over a value that is neither a list nor an object, and begins with `b`. -/
def skipScalar (b : UInt8) : Parser σ Unit :=
  if b == letterN then do
    skip
    letters restOfNull
  else if b == letterT then do
    skip
    letters restOfTrue
  else if b == letterF then do
    skip
    letters restOfFalse
  else if b == minusSign then do
    skip
    skipNumber
  else if isDigit b then
    skipNumber
  else if b == quote then do
    skip
    Source.skipText
  else
    failPeeked .expectedValue

/-- One turn of the walk over a value: past a scalar, into a frame, or on in the innermost one. -/
def skipTurn : Stage × List Frame → Parser σ ((Stage × List Frame) ⊕ Unit)
  | (.value, frames) => behindBlanks (.ended .value) fun b =>
    match Frame.opened? b with
    | some frame => do
      skip
      let stage ← enter frame
      pure (.inl (stage, stage.frames frame frames))
    | none => do
      skipScalar b
      pure (.inl (.after, frames))
  | (.after, []) => pure (.inr ())
  | (.after, frame :: frames) => do
    let stage ← advance frame
    pure (.inl (stage, stage.frames frame frames))

/-- Passes over one value of any kind. -/
def skipValue : Parser σ Unit :=
  loop skipTurn (.value, [])

end BuildFleet.Json.Parser
