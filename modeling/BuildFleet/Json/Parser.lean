import BuildFleet.Json.Literal
import BuildFleet.Json.Text

/-!
# JSON — parsers

A parser works on a *cursor*, which stands between the bytes taken and the bytes ahead.  It looks at the
next byte, takes it, and tells its place; it does not know how the bytes are kept.

An error is placed where it is found, either behind what has been taken or behind the byte looked at.  A
failure to read has no place of its own, and is given the one where the parser stands by the list or
object around it (`Parser.placed`).
-/

namespace BuildFleet.Json

/-- Something that changes the state of a cursor, and gives a value or an error. -/
abbrev Parser (σ α : Type) := EStateM Error σ α

/-- A place in some bytes, and what can be done there. -/
class Cursor (σ : Type) where
  /-- The next byte, if there is one.  It is not taken. -/
  peek : Parser σ (Option UInt8)
  /-- The next byte, if there is one.  It is taken. -/
  next : Parser σ (Option UInt8)
  /-- Takes the byte that was looked at. -/
  skip : σ → σ
  /-- The place behind what has been taken. -/
  place : σ → Place
  /-- The place behind the byte that was looked at. -/
  peekPlace : σ → Place
  /-- Four hexadecimal digits, and their value. -/
  codeUnit : Parser σ Nat
  /-- No fewer than the bytes ahead. -/
  left : σ → Nat

namespace Parser
open Cursor (peek next)

variable {σ α β : Type} [Cursor σ]

/-! ### Errors -/

/-- An error behind what has been taken. -/
def fail (cause : Cause) : Parser σ α :=
  fun s => .error ⟨cause, some (Cursor.place s)⟩ s

/-- An error behind the byte that was looked at. -/
def failPeeked (cause : Cause) : Parser σ α :=
  fun s => .error ⟨cause, some (Cursor.peekPlace s)⟩ s

/-- Gives an error that has no place the one where the parser stands. -/
def placed (p : Parser σ α) : Parser σ α := fun s =>
  match p s with
  | .error ⟨cause, none⟩ s => .error ⟨cause, some (Cursor.place s)⟩ s
  | r => r

/-! ### Steps -/

def skip : Parser σ Unit :=
  modify Cursor.skip

/-- Takes the next byte; `ended` is wrong if there is none. -/
def nextOr (ended : Cause) : Parser σ UInt8 := do
  match ← next with
  | some b => pure b
  | none => fail ended

/-- Looks at the next byte; `ended` is wrong if there is none. -/
def peekOr (ended : Cause) : Parser σ UInt8 := do
  match ← peek with
  | some b => pure b
  | none => fail ended

/-- Turns of a loop, until one gives a result.  A turn that goes on has taken a byte, so there are no more
turns than bytes ahead. -/
def turns (turn : β → Parser σ (β ⊕ α)) : Nat → β → Parser σ α
  | 0, _ => fail (.ended .value)
  | n + 1, b => do
    match ← turn b with
    | .inl b => turns turn n b
    | .inr v => pure v

/-- A loop, from `b` on. -/
def loop (turn : β → Parser σ (β ⊕ α)) (b : β) : Parser σ α := fun s =>
  turns turn (Cursor.left s + 1) b s

/-- Looks at the next byte, and passes over it if it is blank. -/
def blankTurn : Unit → Parser σ (Unit ⊕ Option UInt8) := fun () => do
  match ← peek with
  | some b => if isBlank b then skip; pure (.inl ()) else pure (.inr (some b))
  | none => pure (.inr none)

/-- Passes over blanks, and looks at the byte behind them. -/
def blanks : Parser σ (Option UInt8) :=
  loop blankTurn ()

/-- The byte behind blanks, or none if there is none or it cannot be read. -/
def blanksIfAny : Parser σ (Option UInt8) := fun s =>
  match blanks s with
  | .error _ s => .ok none s
  | r => r

/-- Goes on with the byte behind blanks; `ended` is wrong if there is none. -/
def behindBlanks (ended : Cause) (p : UInt8 → Parser σ α) : Parser σ α := do
  match ← blanks with
  | some b => p b
  | none => failPeeked ended

/-- The letters of a word after the first. -/
def letters : Bytes → Parser σ Unit
  | [] => pure ()
  | letter :: rest => do
    let b ← nextOr (.ended .value)
    if b == letter then letters rest else fail .expectedIdent

/-! ### Escapes -/

/-- One byte of an escape, which has to be the expected one. -/
def continueEscape (expected : UInt8) : Parser σ Unit := do
  let b ← peekOr (.ended .string)
  skip
  if b == expected then pure () else fail .unexpectedEndOfEscape

/-- The bytes of an escape by code unit, after its letter. -/
def unitEscape : Parser σ Bytes := do
  let unit ← Cursor.codeUnit
  if isTrailing unit then
    fail .loneSurrogate
  else if isLeading unit then
    continueEscape backslash
    continueEscape letterU
    let trailing ← Cursor.codeUnit
    if isTrailing trailing then pure (codePointBytes (pairCodePoint unit trailing))
    else fail .loneSurrogate
  else
    pure (codePointBytes unit)

/-- The bytes of an escape, after its backslash. -/
def escape : Parser σ Bytes := do
  let b ← nextOr (.ended .string)
  match shortEscape? b with
  | some byte => pure [byte]
  | none => if b == letterU then unitEscape else fail .invalidEscape

/-- An escape that is passed over, after its backslash. -/
def skipEscape : Parser σ Unit := do
  let b ← nextOr (.ended .string)
  if (shortEscape? b).isSome then pure ()
  else if b == letterU then
    let _ ← Cursor.codeUnit
    pure ()
  else
    fail .invalidEscape

/-- The string of decoded bytes, which have to be UTF-8. -/
def decoded (bytes : Bytes) : Parser σ String :=
  match Text.Utf8.decode? bytes with
  | some s => pure s
  | none => fun s =>
    let place : Place := Cursor.place s
    let back := bytes.length - Text.Utf8.validLength bytes
    .error ⟨.invalidCodePoint, some { place with column := place.column - back }⟩ s

end Parser

end BuildFleet.Json
