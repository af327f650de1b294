import BuildFleet.Json.Input

/-!
# JSON — words

The three words `null`, `true` and `false`.  A word is known by its first letter, so what is read
here are the letters behind it.
-/

namespace BuildFleet.Json

/-- The letters of `null` after the first. -/
def restOfNull : Bytes := [0x75, 0x6c, 0x6c]

/-- The letters of `true` after the first. -/
def restOfTrue : Bytes := [0x72, 0x75, 0x65]

/-- The letters of `false` after the first. -/
def restOfFalse : Bytes := [0x61, 0x6c, 0x73, 0x65]

/-- The rest after these letters; a wrong one counts as consumed. -/
def readLetters (e : Ending) : (letters bytes : Bytes) → Except Fault Bytes
  | [], bytes => .ok bytes
  | _ :: _, [] => .error (e.fault (.ended .value))
  | letter :: letters, b :: rest =>
    if b == letter then readLetters e letters rest
    else .error ⟨.expectedIdent, .consumed rest.length⟩

theorem readLetters_eq_ok_iff {e : Ending} {letters bytes rest : Bytes} :
    readLetters e letters bytes = .ok rest ↔ bytes = letters ++ rest := by
  induction letters generalizing bytes with
  | nil => simp [readLetters]
  | cons letter letters ih =>
    cases bytes with
    | nil => simp [readLetters]
    | cons b bytes =>
      by_cases hb : b = letter
      · subst hb
        simp [readLetters, ih]
      · simp [readLetters, hb]

theorem length_of_readLetters {e : Ending} {letters bytes rest : Bytes}
    (h : readLetters e letters bytes = .ok rest) : rest.length ≤ bytes.length := by
  rw [readLetters_eq_ok_iff.mp h, List.length_append]
  exact Nat.le_add_left _ _

end BuildFleet.Json
