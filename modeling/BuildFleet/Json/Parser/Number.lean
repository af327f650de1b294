import BuildFleet.Json.Number
import BuildFleet.Json.Parser

/-!
# JSON — parsers of numbers

A number is taken byte by byte.  Its end shows only in the byte behind it, which is looked at.
-/

namespace BuildFleet.Json.Parser
open Cursor (peek)

variable {σ : Type} [Cursor σ]

/-- Takes a digit, behind those of `done`, which are in reverse; they may be too large. -/
def digitTurn (tooLarge : Bytes → Bool) (done : Bytes) : Parser σ (Bytes ⊕ Bytes) := do
  match ← peek with
  | some b =>
    if isDigit b then
      skip
      if tooLarge (b :: done).reverse then fail .numberOutOfRange else pure (.inl (b :: done))
    else
      pure (.inr done.reverse)
  | none => pure (.inr done.reverse)

/-- The digits that come next. -/
def digits : Parser σ Bytes :=
  loop (digitTurn fun _ => false) []

/-- The integer part. -/
def whole (atEnd : Cause) : Parser σ Bytes := do
  let b ← nextOr atEnd
  if b == zeroDigit then
    match ← peek with
    | some d => if isDigit d then failPeeked .invalidNumber else pure [b]
    | none => pure [b]
  else if isDigit b then
    let rest ← digits
    pure (b :: rest)
  else
    fail .invalidNumber

/-- The digits after a decimal point, if there is one. -/
def fraction (atEnd : Cause) : Parser σ (Option Bytes) := do
  match ← peek with
  | some b =>
    if b == point then
      skip
      let taken ← digits
      if taken.isEmpty then
        match ← peek with
        | some _ => failPeeked .invalidNumber
        | none => failPeeked atEnd
      else
        pure (some taken)
    else
      pure none
  | none => pure none

/-- Whether a minus stands here; a plus is passed over as well. -/
def sign : Parser σ Bool := do
  match ← peek with
  | some b =>
    if b == minusSign then
      skip
      pure true
    else if b == plusSign then
      skip
      pure false
    else
      pure false
  | none => pure false

/-- The sign and the digits of an exponent, if there is one. -/
def exponent (atEnd : Cause) (tooLarge : Bool → Bytes → Bool) : Parser σ (Option (Bool × Bytes)) := do
  match ← peek with
  | some b =>
    if isExponentLetter b then
      skip
      let negative ← sign
      let d ← nextOr atEnd
      if isDigit d then
        let taken ← loop (digitTurn (tooLarge negative)) [d]
        pure (some (negative, taken))
      else
        fail .invalidNumber
    else
      pure none
  | none => pure none

/-- The parts of a number, after its minus; `atEnd` is wrong if the bytes end too early.  It is out of range
as soon as it is too large. -/
def numeral (atEnd : Cause) (tooLarge : Numeral → Bool) : Parser σ Numeral := do
  let whole ← whole atEnd
  let fraction ← fraction atEnd
  let exponent ← exponent atEnd fun negative digits => tooLarge ⟨whole, fraction, some (negative, digits)⟩
  pure ⟨whole, fraction, exponent⟩

/-- The value of a number, after its minus if it is negative. -/
def number (negative : Bool) : Parser σ Found := do
  let n ← numeral (.ended .value) Numeral.overflows
  match n.value? negative with
  | some found => pure found
  | none => fail .numberOutOfRange

/-- Passes over a number of any size, after its minus. -/
def skipNumber : Parser σ Unit := do
  let _ ← numeral .invalidNumber fun _ => false
  pure ()

end BuildFleet.Json.Parser
