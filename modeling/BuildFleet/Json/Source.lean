import BuildFleet.Json.Parser

/-!
# JSON — where the bytes come from

The bytes are kept in one of two ways.

* A `Slice` is a text in memory with the index of the next byte.  To look at a byte is to read it at that
  index; a string is scanned for the next byte that means something in it, and what lies before is copied
  as a whole; four hexadecimal digits are read at once.  Its place is counted when it is asked for.
* A `Stream` delivers one byte at a time, and may fail.  To look at a byte it has to take it and hold it
  back, and the place is counted along with the bytes it delivers, so it is behind the byte that is held
  back.
-/

namespace BuildFleet.Json

/-- A cursor that can read strings, from behind the opening quote on. -/
class Source (σ : Type) extends Cursor σ where
  text : Parser σ String
  /-- Passes over a string. -/
  skipText : Parser σ Unit

/-- A byte stands for itself in a string. -/
def isPlain (b : UInt8) : Bool :=
  !(b == quote || b == backslash || isControl b)

/-! ### Texts in memory -/

/-- Bytes in memory, and the index of the next one. -/
structure Slice where
  bytes : Array UInt8
  index : Nat

namespace Slice

/-- In front of all bytes. -/
def start (bytes : Bytes) : Slice where
  bytes := bytes.toArray
  index := 0

/-- The byte at the index. -/
def next? (s : Slice) : Option UInt8 :=
  s.bytes[s.index]?

/-- The place behind so many bytes. -/
def placeAt (s : Slice) (index : Nat) : Place :=
  .after (s.bytes.toList.take index)

instance : Cursor Slice where
  peek s := .ok s.next? s
  next s :=
    match s.next? with
    | some b => .ok (some b) { s with index := s.index + 1 }
    | none => .ok none s
  skip s := { s with index := s.index + 1 }
  place s := s.placeAt s.index
  -- there may be no byte at the index
  peekPlace s := s.placeAt (min s.bytes.size (s.index + 1))
  codeUnit s :=
    match s.bytes[s.index]?, s.bytes[s.index + 1]?, s.bytes[s.index + 2]?, s.bytes[s.index + 3]? with
    | some a, some b, some c, some d =>
      let s := { s with index := s.index + 4 }
      match codeUnit? a b c d with
      | some unit => .ok unit s
      | none => .error ⟨.invalidEscape, some (s.placeAt s.index)⟩ s
    | _, _, _, _ =>
      let s := { s with index := s.bytes.size }
      .error ⟨.ended .string, some (s.placeAt s.index)⟩ s
  left s := s.bytes.size - s.index

/-- The index of the next byte that means something in a string, or of the end. -/
def stop (bytes : Array UInt8) (index : Nat) : Nat :=
  if h : index < bytes.size then
    if isPlain bytes[index] then stop bytes (index + 1) else index
  else
    index
termination_by bytes.size - index

/-- Scans a string up to such a byte. -/
def scan (s : Slice) : Slice :=
  { s with index := stop s.bytes s.index }

/-- The decoded bytes up to the closing quote, behind those of `done`: what was scanned, and perhaps an
escape. -/
def textTurn (done : Bytes) : Parser Slice (Bytes ⊕ Bytes) := fun start =>
  let s := start.scan
  let done := done ++ (s.bytes.extract start.index s.index).toList
  match s.next? with
  | none => Parser.fail (.ended .string) s
  | some b =>
    let s := Cursor.skip s
    if b == quote then .ok (.inr done) s
    else if b == backslash then (Parser.escape >>= fun bytes => pure (.inl (done ++ bytes))) s
    else Parser.fail .controlCharacter s

/-- The rest of a string that is passed over.  A control character in it is not taken. -/
def skipTurn : Unit → Parser Slice (Unit ⊕ Unit) := fun () start =>
  let s := start.scan
  match s.next? with
  | none => Parser.fail (.ended .string) s
  | some b =>
    if b == quote then .ok (.inr ()) (Cursor.skip s)
    else if b == backslash then (Parser.skipEscape >>= fun () => pure (.inl ())) (Cursor.skip s)
    else Parser.fail .controlCharacter s

instance : Source Slice where
  text := do
    let bytes ← Parser.loop textTurn []
    Parser.decoded bytes
  skipText := Parser.loop skipTurn ()

end Slice

/-! ### Streams -/

/-- Bytes that are still to be delivered, a byte that is held back, and the place behind what has been
delivered. -/
structure Stream where
  unread : Bytes
  ending : Ending
  held : Option UInt8
  place : Place

/-- The place behind one more byte. -/
def Place.step (place : Place) (b : UInt8) : Place :=
  if b == newline then ⟨place.line + 1, 0⟩ else { place with column := place.column + 1 }

namespace Stream

/-- Nothing is delivered yet. -/
def start (bytes : Bytes) (ending : Ending) : Stream where
  unread := bytes
  ending := ending
  held := none
  place := ⟨1, 0⟩

/-- One more byte, if there is one. -/
def deliver : Parser Stream (Option UInt8) := fun s =>
  match s.unread with
  | b :: unread => .ok (some b) { s with unread, place := s.place.step b }
  | [] =>
    match s.ending with
    | .closed => .ok none s
    | .failing error => .error ⟨.io error, none⟩ s

/-- The byte that is held back, or one more. -/
def next : Parser Stream (Option UInt8) := fun s =>
  match s.held with
  | some b => .ok (some b) { s with held := none }
  | none => deliver s

/-- A digit of a code unit. -/
def digit : Parser Stream UInt8 := fun s =>
  match next s with
  | .ok (some b) s => .ok b s
  | .ok none s => .error ⟨.ended .string, some s.place⟩ s
  | .error e s => .error e s

instance : Cursor Stream where
  peek s :=
    match s.held with
    | some b => .ok (some b) s
    | none =>
      match deliver s with
      | .ok (some b) s => .ok (some b) { s with held := some b }
      | r => r
  next := next
  skip s := { s with held := none }
  place s := s.place
  peekPlace s := s.place
  codeUnit := do
    let a ← digit
    let b ← digit
    let c ← digit
    let d ← digit
    match codeUnit? a b c d with
    | some unit => pure unit
    | none => fun s => .error ⟨.invalidEscape, some s.place⟩ s
  left s := s.unread.length + if s.held.isSome then 1 else 0

/-- The decoded bytes up to the closing quote, behind those of `done`, which are in reverse. -/
def textTurn (done : Bytes) : Parser Stream (Bytes ⊕ Bytes) := do
  let b ← Parser.nextOr (.ended .string)
  if b == quote then
    pure (.inr done.reverse)
  else if b == backslash then
    let bytes ← Parser.escape
    pure (.inl (bytes.reverse ++ done))
  else if isControl b then
    Parser.fail .controlCharacter
  else
    pure (.inl (b :: done))

/-- The rest of a string that is passed over. -/
def skipTurn : Unit → Parser Stream (Unit ⊕ Unit) := fun () => do
  let b ← Parser.nextOr (.ended .string)
  if b == quote then
    pure (.inr ())
  else if b == backslash then
    let () ← Parser.skipEscape
    pure (.inl ())
  else if isControl b then
    Parser.fail .controlCharacter
  else
    pure (.inl ())

instance : Source Stream where
  text := do
    let bytes ← Parser.loop textTurn []
    Parser.decoded bytes
  skipText := Parser.loop skipTurn ()

end Stream

end BuildFleet.Json
