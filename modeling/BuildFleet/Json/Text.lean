import BuildFleet.Json.Input

/-!
# JSON — strings

The characters between two quotes.  A character is written as itself, by a short escape, or by one
or two UTF-16 code units in hexadecimal.

A string that is *read* is decoded into bytes first, which have to be UTF-8 as a whole; its
surrogates have to come in pairs.  A string that is *skipped* is only followed to its closing
quote.
-/

namespace BuildFleet.Json

/-! ### Escapes -/

/-- The value of a hexadecimal digit. -/
def hexValue? (b : UInt8) : Option Nat :=
  if 0x30 ≤ b && b ≤ 0x39 then some (b.toNat - 0x30)
  else if 0x61 ≤ b && b ≤ 0x66 then some (b.toNat - 0x61 + 10)
  else if 0x41 ≤ b && b ≤ 0x46 then some (b.toNat - 0x41 + 10)
  else none

/-- The code unit of four hexadecimal digits. -/
def codeUnit? (a b c d : UInt8) : Option Nat := do
  let a ← hexValue? a
  let b ← hexValue? b
  let c ← hexValue? c
  let d ← hexValue? d
  some (((a * 16 + b) * 16 + c) * 16 + d)

/-- What a short escape stands for. -/
def shortEscape? (b : UInt8) : Option UInt8 :=
  if b == quote || b == backslash || b == 0x2f then some b
  else if b == 0x62 then some 0x08
  else if b == 0x66 then some 0x0c
  else if b == 0x6e then some 0x0a
  else if b == 0x72 then some 0x0d
  else if b == 0x74 then some 0x09
  else none

def isLeading (unit : Nat) : Bool :=
  0xd800 ≤ unit && unit ≤ 0xdbff

def isTrailing (unit : Nat) : Bool :=
  0xdc00 ≤ unit && unit ≤ 0xdfff

/-- The code point of a surrogate pair. -/
def pairCodePoint (leading trailing : Nat) : Nat :=
  0x10000 + (leading - 0xd800) * 0x400 + (trailing - 0xdc00)

/-- The UTF-8 form of a code point. -/
def codePointBytes (n : Nat) : Bytes :=
  String.utf8EncodeChar (Char.ofNat n)

/-- Four hexadecimal digits.  They are judged once all four are there. -/
def readCodeUnit (e : Ending) : Bytes → Except Fault (Nat × Bytes)
  | a :: b :: c :: d :: rest =>
    match codeUnit? a b c d with
    | some unit => .ok (unit, rest)
    | none => .error ⟨.invalidEscape, .consumed rest.length⟩
  | _ => .error (e.fault (.ended .string))

/-- One byte, which has to be the expected one: the escape of a leading surrogate goes on. -/
def continueEscape (e : Ending) (expected : UInt8) : Bytes → Except Fault Bytes
  | [] => .error (e.fault (.ended .string))
  | b :: rest =>
    if b == expected then .ok rest
    else .error ⟨.unexpectedEndOfEscape, .consumed rest.length⟩

/-- The bytes of an escape by code unit, after its letter. -/
def readUnitEscape (e : Ending) (bytes : Bytes) : Except Fault (Bytes × Bytes) := do
  let (unit, rest) ← readCodeUnit e bytes
  if isTrailing unit then
    .error ⟨.loneSurrogate, .consumed rest.length⟩
  else if isLeading unit then
    let rest ← continueEscape e backslash rest
    let rest ← continueEscape e letterU rest
    let (trailing, rest) ← readCodeUnit e rest
    if isTrailing trailing then
      .ok (codePointBytes (pairCodePoint unit trailing), rest)
    else
      .error ⟨.loneSurrogate, .consumed rest.length⟩
  else
    .ok (codePointBytes unit, rest)

/-- The bytes of an escape, after its backslash. -/
def readEscape (e : Ending) : Bytes → Except Fault (Bytes × Bytes)
  | [] => .error (e.fault (.ended .string))
  | b :: rest =>
    match shortEscape? b with
    | some byte => .ok ([byte], rest)
    | none =>
      if b == letterU then readUnitEscape e rest
      else .error ⟨.invalidEscape, .consumed rest.length⟩

/-- The rest after an escape whose code unit need not be one of a character. -/
def skipEscape (e : Ending) : Bytes → Except Fault Bytes
  | [] => .error (e.fault (.ended .string))
  | b :: rest =>
    if (shortEscape? b).isSome then
      .ok rest
    else if b == letterU then do
      let (_, rest) ← readCodeUnit e rest
      .ok rest
    else
      .error ⟨.invalidEscape, .consumed rest.length⟩

theorem length_of_readCodeUnit {e : Ending} {bytes rest : Bytes} {unit : Nat}
    (h : readCodeUnit e bytes = .ok (unit, rest)) : rest.length < bytes.length := by
  unfold readCodeUnit at h
  split at h
  · split at h
    · cases h
      simp only [List.length_cons]
      omega
    · cases h
  · cases h

theorem length_of_continueEscape {e : Ending} {expected : UInt8} {bytes rest : Bytes}
    (h : continueEscape e expected bytes = .ok rest) : rest.length < bytes.length := by
  unfold continueEscape at h
  split at h
  · cases h
  · split at h
    · cases h
      exact Nat.lt_succ_self _
    · cases h

theorem length_of_readUnitEscape {e : Ending} {bytes decoded rest : Bytes}
    (h : readUnitEscape e bytes = .ok (decoded, rest)) : rest.length < bytes.length := by
  obtain ⟨⟨unit, rest₁⟩, h₁, h⟩ := bind_eq_ok.mp h
  have hl₁ := length_of_readCodeUnit h₁
  dsimp only at h
  split at h
  · cases h
  · split at h
    · obtain ⟨rest₂, h₂, h⟩ := bind_eq_ok.mp h
      obtain ⟨rest₃, h₃, h⟩ := bind_eq_ok.mp h
      obtain ⟨⟨trailing, rest₄⟩, h₄, h⟩ := bind_eq_ok.mp h
      have hl₂ := length_of_continueEscape h₂
      have hl₃ := length_of_continueEscape h₃
      have hl₄ := length_of_readCodeUnit h₄
      dsimp only at h
      split at h
      · obtain rfl := (Prod.mk.inj (Except.ok.inj h)).2
        omega
      · cases h
    · obtain rfl := (Prod.mk.inj (Except.ok.inj h)).2
      exact hl₁

theorem length_of_readEscape {e : Ending} {bytes decoded rest : Bytes}
    (h : readEscape e bytes = .ok (decoded, rest)) : rest.length < bytes.length := by
  unfold readEscape at h
  split at h
  · cases h
  · split at h
    · cases h
      exact Nat.lt_succ_self _
    · split at h
      · exact Nat.lt_succ_of_lt (length_of_readUnitEscape h)
      · cases h

theorem length_of_skipEscape {e : Ending} {bytes rest : Bytes}
    (h : skipEscape e bytes = .ok rest) : rest.length < bytes.length := by
  unfold skipEscape at h
  split at h
  · cases h
  · split at h
    · cases h
      exact Nat.lt_succ_self _
    · split at h
      · obtain ⟨⟨unit, rest₁⟩, h₁, h⟩ := bind_eq_ok.mp h
        cases h
        exact Nat.lt_succ_of_lt (length_of_readCodeUnit h₁)
      · cases h

/-! ### Strings -/

/-- The decoded bytes up to the closing quote, after those of `done`, which are in reverse. -/
def readTextBytes (e : Ending) (done : Bytes) (bytes : Bytes) : Except Fault (Bytes × Bytes) :=
  match bytes with
  | [] => .error (e.fault (.ended .string))
  | b :: rest =>
    if b == quote then
      .ok (done.reverse, rest)
    else if b == backslash then
      match _h : readEscape e rest with
      | .error fault => .error fault
      | .ok (decoded, rest) => readTextBytes e (decoded.reverse ++ done) rest
    else if isControl b then
      .error ⟨.controlCharacter, .consumed rest.length⟩
    else
      readTextBytes e (b :: done) rest
termination_by bytes.length
decreasing_by
  · exact Nat.lt_succ_of_lt (length_of_readEscape _h)
  · exact Nat.lt_succ_self _

/-- The string up to the closing quote, after the opening one.  Bytes that are no UTF-8 are found
out at the closing quote, and placed before it by as many columns as there are decoded bytes from
the first wrong one on. -/
def readText (e : Ending) (bytes : Bytes) : Except Fault (String × Bytes) := do
  let (decoded, rest) ← readTextBytes e [] bytes
  match Text.Utf8.decode? decoded with
  | some s => .ok (s, rest)
  | none =>
    let back := decoded.length - Text.Utf8.validLength decoded
    .error ⟨.invalidCodePoint, .behind rest.length back⟩

/-- The rest after the closing quote. -/
def skipText (e : Ending) (bytes : Bytes) : Except Fault Bytes :=
  match bytes with
  | [] => .error (e.fault (.ended .string))
  | b :: rest =>
    if b == quote then
      .ok rest
    else if b == backslash then
      match _h : skipEscape e rest with
      | .error fault => .error fault
      | .ok rest => skipText e rest
    else if isControl b then
      .error ⟨.controlCharacter, .looked (rest.length + 1)⟩
    else
      skipText e rest
termination_by bytes.length
decreasing_by
  · exact Nat.lt_succ_of_lt (length_of_skipEscape _h)
  · exact Nat.lt_succ_self _

/-! One turn of each loop, as a chain of steps with the rest of the loop as the last of them. -/

theorem readTextBytes_nil (e : Ending) (done : Bytes) :
    readTextBytes e done [] = .error (e.fault (.ended .string)) := by
  rw [readTextBytes]

theorem readTextBytes_cons (e : Ending) (done : Bytes) (b : UInt8) (rest : Bytes) :
    readTextBytes e done (b :: rest) =
      if b == quote then .ok (done.reverse, rest)
      else if b == backslash then
        readEscape e rest >>= fun (decoded, rest) => readTextBytes e (decoded.reverse ++ done) rest
      else if isControl b then .error ⟨.controlCharacter, .consumed rest.length⟩
      else readTextBytes e (b :: done) rest := by
  rw [readTextBytes]
  split
  · rfl
  · split
    · split <;> (rename_i h; rw [h]; rfl)
    · rfl

theorem skipText_nil (e : Ending) : skipText e [] = .error (e.fault (.ended .string)) := by
  rw [skipText]

theorem skipText_cons (e : Ending) (b : UInt8) (rest : Bytes) :
    skipText e (b :: rest) =
      if b == quote then .ok rest
      else if b == backslash then skipEscape e rest >>= skipText e
      else if isControl b then .error ⟨.controlCharacter, .looked (rest.length + 1)⟩
      else skipText e rest := by
  rw [skipText]
  split
  · rfl
  · split
    · split <;> (rename_i h; rw [h]; rfl)
    · rfl

theorem length_of_readTextBytes {e : Ending} {done bytes decoded rest : Bytes}
    (h : readTextBytes e done bytes = .ok (decoded, rest)) : rest.length < bytes.length := by
  fun_induction readTextBytes e done bytes with
  | case1 => cases h
  | case2 =>
    cases h
    exact Nat.lt_succ_self _
  | case3 => cases h
  | case4 done b rest' _ _ decoded' rest'' hesc ih =>
    exact Nat.lt_succ_of_lt (Nat.lt_trans (ih h) (length_of_readEscape hesc))
  | case5 => cases h
  | case6 _ _ _ _ _ _ ih => exact Nat.lt_succ_of_lt (ih h)

theorem length_of_readText {e : Ending} {bytes rest : Bytes} {s : String}
    (h : readText e bytes = .ok (s, rest)) : rest.length < bytes.length := by
  obtain ⟨⟨decoded, rest₁⟩, h₁, h⟩ := bind_eq_ok.mp h
  dsimp only at h
  split at h
  · cases h
    exact length_of_readTextBytes h₁
  · cases h

theorem length_of_skipText {e : Ending} {bytes rest : Bytes}
    (h : skipText e bytes = .ok rest) : rest.length < bytes.length := by
  fun_induction skipText e bytes with
  | case1 => cases h
  | case2 =>
    cases h
    exact Nat.lt_succ_self _
  | case3 => cases h
  | case4 b rest' _ _ rest'' hesc ih =>
    exact Nat.lt_succ_of_lt (Nat.lt_trans (ih h) (length_of_skipEscape hesc))
  | case5 => cases h
  | case6 _ _ _ _ _ ih => exact Nat.lt_succ_of_lt (ih h)

end BuildFleet.Json
