import BuildFleet.SystemError

/-!
# Output

Lines are written to the standard output through a buffer.  What is written goes into the buffer
while there is room in it; the buffer is handed over when it is full, and at the end.

The standard output may refuse what it is given, and then it takes nothing of it.  The writing stops
there, but what was handed over before stays where it is.
-/

namespace BuildFleet

/-- What the standard output holds, and how many bytes it holds at most, if there is a limit. -/
structure Sink where
  room : Option Nat
  held : String := ""

/-- The sink with one more piece, unless that is too much. -/
def Sink.take (s : Sink) (piece : String) : Except SystemError Sink :=
  let held := s.held ++ piece
  if s.room.all (held.utf8ByteSize ≤ ·) then .ok { s with held } else .error (.refused .stdout)

/-- A sink, and what is still to be handed over to it. -/
structure Buffered where
  sink : Sink
  pending : String := ""

namespace Buffered

/-- How many bytes are kept back at most. -/
def capacity : Nat := 8192

/-- How many more bytes can be kept back. -/
def spare (w : Buffered) : Nat :=
  capacity - w.pending.utf8ByteSize

/-- Something that writes, and may be refused.  The writer is still there after that. -/
abbrev Writing := EStateM SystemError Buffered Unit

/-- Keeps a piece back. -/
def keep (piece : String) : Writing :=
  modify fun w => { w with pending := w.pending ++ piece }

/-- Hands a piece over to the sink. -/
def handOver (piece : String) : Writing := fun w =>
  match w.sink.take piece with
  | .ok sink => .ok () { w with sink }
  | .error error => .error error w

/-- Hands over what is kept back, if there is anything. -/
def flush : Writing := do
  let w ← get
  unless w.pending.isEmpty do
    handOver w.pending
    modify ({ · with pending := "" })

/-- Hands over what is kept back, if this piece does not fit behind it. -/
def makeRoom (piece : String) : Writing := do
  let w ← get
  if w.spare < piece.utf8ByteSize then flush

/-- Writes a piece.  One that would fill the buffer alone does not go through it. -/
def write (piece : String) : Writing := do
  let w ← get
  if piece.utf8ByteSize < w.spare then
    keep piece
  else
    makeRoom piece
    if capacity ≤ piece.utf8ByteSize then handOver piece else keep piece

/-- Writes a text, and ends its line. -/
def writeLine (text : String) : Writing := do
  write text
  write "\n"

/-- Writes each text on a line of its own, up to the first that is refused. -/
def writeLines (texts : List String) : Writing := do
  texts.forM writeLine
  flush

/-- What the sink holds in the end: what is still kept back is offered once more. -/
def close (w : Buffered) : String :=
  match flush w with
  | .ok () w | .error _ w => w.sink.held

end Buffered

end BuildFleet
