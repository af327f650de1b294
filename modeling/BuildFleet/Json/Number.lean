import BuildFleet.Json.Input

/-!
# JSON — numbers

A number is an integer part without leading zeros, then perhaps a fraction, then perhaps an
exponent, each with at least one digit (`readNumeral`).

A number that is *skipped* may be of any size.  One that is *read* gets a value: an integer if it
is written as one and fits 64 bits, and a double otherwise (`Numeral.found`).  No shape wants a
number, so the value only appears in the message that says so.
-/

namespace BuildFleet.Json

def digitValue (b : UInt8) : Nat :=
  b.toNat - 0x30

/-- The digits of the parts of a number.  The exponent has its sign, which may be a minus. -/
structure Numeral where
  whole : Bytes
  fraction : Option Bytes
  exponent : Option (Bool × Bytes)

/-! ### Spelling -/

/-- The fault of a missing digit: before the end of the bytes it is `atEnd`. -/
def missingDigit (e : Ending) (atEnd : Cause) : Bytes → Fault
  | [] => e.fault atEnd
  | rest@(_ :: _) => ⟨.invalidNumber, .peeked rest.length⟩

/-- The integer part: a zero, or digits that begin with another one. -/
def readWhole (e : Ending) (atEnd : Cause) : Bytes → Except Fault (Bytes × Bytes)
  | [] => .error (e.fault atEnd)
  | b :: rest =>
    if b == zeroDigit then
      match rest with
      | d :: _ =>
        if isDigit d then .error ⟨.invalidNumber, .peeked rest.length⟩ else .ok ([b], rest)
      | [] => .ok ([b], rest)
    else if isDigit b then
      .ok (b :: rest.takeWhile isDigit, rest.dropWhile isDigit)
    else
      .error ⟨.invalidNumber, .consumed rest.length⟩

/-- The digits after a decimal point, if there is one. -/
def readFraction (e : Ending) (atEnd : Cause) (bytes : Bytes) :
    Except Fault (Option Bytes × Bytes) :=
  match bytes with
  | b :: rest =>
    if b == point then
      let digits := rest.takeWhile isDigit
      if digits.isEmpty then .error (missingDigit e atEnd rest)
      else .ok (some digits, rest.dropWhile isDigit)
    else
      .ok (none, bytes)
  | [] => .ok (none, bytes)

/-- Whether a minus stands here, after which the bytes go on; a plus is passed over as well. -/
def readSign : Bytes → Bool × Bytes
  | [] => (false, [])
  | b :: rest =>
    if b == minusSign then (true, rest)
    else if b == plusSign then (false, rest)
    else (false, b :: rest)

/-- The sign and the digits after the letter of an exponent, if there is one. -/
def readExponent (e : Ending) (atEnd : Cause) (bytes : Bytes) :
    Except Fault (Option (Bool × Bytes) × Bytes) :=
  match bytes with
  | b :: rest =>
    if isExponentLetter b then
      match readSign rest with
      | (_, []) => .error (e.fault atEnd)
      | (negative, d :: rest) =>
        if isDigit d then
          .ok (some (negative, d :: rest.takeWhile isDigit), rest.dropWhile isDigit)
        else
          .error ⟨.invalidNumber, .consumed rest.length⟩
    else
      .ok (none, bytes)
  | [] => .ok (none, bytes)

/-- The parts of a number, after its minus; `atEnd` is wrong if the bytes end too early. -/
def readNumeral (e : Ending) (atEnd : Cause) (bytes : Bytes) :
    Except Fault (Numeral × Bytes) := do
  let (whole, rest) ← readWhole e atEnd bytes
  let (fraction, rest) ← readFraction e atEnd rest
  let (exponent, rest) ← readExponent e atEnd rest
  .ok (⟨whole, fraction, exponent⟩, rest)

/-- The rest after a number, after its minus. -/
def skipNumber (e : Ending) (bytes : Bytes) : Except Fault Bytes := do
  let (_, rest) ← readNumeral e .invalidNumber bytes
  e.look rest

theorem length_dropWhile_le {α : Type} (p : α → Bool) (l : List α) :
    (l.dropWhile p).length ≤ l.length :=
  (List.dropWhile_sublist _).length_le

theorem length_of_readWhole {e : Ending} {atEnd : Cause} {bytes whole rest : Bytes}
    (h : readWhole e atEnd bytes = .ok (whole, rest)) : rest.length < bytes.length := by
  unfold readWhole at h
  split at h
  · cases h
  · split at h
    · split at h
      · split at h
        · cases h
        · cases h
          exact Nat.lt_succ_self _
      · cases h
        exact Nat.lt_succ_self _
    · split at h
      · cases h
        exact Nat.lt_succ_of_le (length_dropWhile_le _ _)
      · cases h

theorem length_of_readFraction {e : Ending} {atEnd : Cause} {bytes rest : Bytes}
    {fraction : Option Bytes} (h : readFraction e atEnd bytes = .ok (fraction, rest)) :
    rest.length ≤ bytes.length := by
  unfold readFraction at h
  split at h
  · split at h
    · dsimp only at h
      split at h
      · cases h
      · cases h
        exact Nat.le_succ_of_le (length_dropWhile_le _ _)
    · cases h
      exact Nat.le_refl _
  · cases h
    exact Nat.le_refl _

theorem length_readSign_le (bytes : Bytes) : (readSign bytes).2.length ≤ bytes.length := by
  unfold readSign
  split
  · exact Nat.le_refl _
  · split
    · exact Nat.le_succ _
    · split
      · exact Nat.le_succ _
      · exact Nat.le_refl _

theorem length_of_readExponent {e : Ending} {atEnd : Cause} {bytes rest : Bytes}
    {exponent : Option (Bool × Bytes)} (h : readExponent e atEnd bytes = .ok (exponent, rest)) :
    rest.length ≤ bytes.length := by
  unfold readExponent at h
  split at h
  · rename_i b rest₁
    split at h
    · have hs := length_readSign_le rest₁
      split at h
      · cases h
      · rename_i negative d rest₂ hsign
        rw [hsign] at hs
        split at h
        · cases h
          have hd := length_dropWhile_le isDigit rest₂
          simp only [List.length_cons] at hs ⊢
          omega
        · cases h
    · cases h
      exact Nat.le_refl _
  · cases h
    exact Nat.le_refl _

theorem length_of_readNumeral {e : Ending} {atEnd : Cause} {bytes rest : Bytes} {n : Numeral}
    (h : readNumeral e atEnd bytes = .ok (n, rest)) : rest.length < bytes.length := by
  obtain ⟨⟨whole, rest₁⟩, h₁, h⟩ := bind_eq_ok.mp h
  obtain ⟨⟨fraction, rest₂⟩, h₂, h⟩ := bind_eq_ok.mp h
  obtain ⟨⟨exponent, rest₃⟩, h₃, h⟩ := bind_eq_ok.mp h
  cases h
  have hl₁ := length_of_readWhole h₁
  have hl₂ := length_of_readFraction h₂
  have hl₃ := length_of_readExponent h₃
  omega

theorem length_of_skipNumber {e : Ending} {bytes rest : Bytes}
    (h : skipNumber e bytes = .ok rest) : rest.length < bytes.length := by
  obtain ⟨⟨n, rest₁⟩, h₁, h⟩ := bind_eq_ok.mp h
  rw [Ending.look_eq_ok h]
  exact length_of_readNumeral h₁

/-! ### Value -/

/-- Appends digits to a number for as long as it stays below the limit; the digits from the first
that does not fit on are left. -/
def appendDigits (limit : Nat) : Nat → Bytes → Nat × Bytes
  | n, [] => (n, [])
  | n, d :: ds =>
    let longer := 10 * n + digitValue d
    if longer < limit then appendDigits limit longer ds else (n, d :: ds)

/-- The digits of a number as far as they fit 64 bits. -/
structure Significand where
  value : Nat
  /-- The power of ten that places the last digit taken. -/
  exponent : Int
  /-- All digits were taken, and none of them after a point. -/
  integral : Bool

/-- Takes digits of the integer part, then of the fraction.  An integer digit that is left makes
the number ten times as large, a fraction digit taken ten times as small; one that is left is
lost. -/
def Numeral.significand (n : Numeral) : Significand :=
  let (whole, left) := appendDigits (Nat.pow 2 64) 0 n.whole
  match n.fraction with
  | none => ⟨whole, left.length, left.isEmpty⟩
  | some digits =>
    let (value, lost) := appendDigits (Nat.pow 2 64) whole digits
    ⟨value, left.length - (digits.length - lost.length : Nat), false⟩

/-- A double of this value, or the fault that it is too large. -/
def floatOfParts (negative : Bool) (s : Significand) (exponent : Int) : Option Found :=
  ((Decimal.Binary64.nearest? s.value 1).bind (·.timesPowerOfTen? (s.exponent + exponent))).map
    (.float negative)

/-- The digits of the exponent from the one on that makes it 2 ^ 31 or more. -/
def Numeral.excess (n : Numeral) : Bytes :=
  match n.exponent with
  | some (_, digits) => (appendDigits (Nat.pow 2 31) 0 digits).2
  | none => []

/-- The exponent alone makes the number too large. -/
def Numeral.overflows (n : Numeral) : Bool :=
  match n.exponent with
  | some (down, _) => !n.excess.isEmpty && n.significand.value ≠ 0 && !down
  | none => false

/-- The value of a number, unless it is too large.  With an exponent of 2 ^ 31 or more it is zero, or too
large. -/
def Numeral.value? (n : Numeral) (negative : Bool) : Option Found :=
  let s := n.significand
  match n.exponent with
  | some (down, digits) =>
    let (exponent, left) := appendDigits (Nat.pow 2 31) 0 digits
    if left.isEmpty then floatOfParts negative s (if down then -exponent else exponent)
    else some (.float negative .zero)
  | none =>
    if s.integral && !negative then
      some (.integer s.value)
    else if s.integral && 0 < s.value && s.value ≤ Nat.pow 2 63 then
      some (.integer (-s.value))
    else
      floatOfParts negative s 0

/-- The value of a number, after which these bytes are left.  One whose exponent alone is too large is out
of range as soon as the digit is read that makes it so. -/
def Numeral.found (n : Numeral) (e : Ending) (negative : Bool) (rest : Bytes) :
    Except Fault Found :=
  if n.overflows then
    .error ⟨.numberOutOfRange, .consumed (n.excess.length - 1 + rest.length)⟩
  else do
    let rest ← e.look rest
    (n.value? negative).elim (.error ⟨.numberOutOfRange, .looked rest.length⟩) .ok

/-- The value of a number, after its minus if it is negative. -/
def readNumber (e : Ending) (negative : Bool) (bytes : Bytes) :
    Except Fault (Found × Bytes) := do
  let (n, rest) ← readNumeral e (.ended .value) bytes
  let found ← n.found e negative rest
  .ok (found, rest)

end BuildFleet.Json
