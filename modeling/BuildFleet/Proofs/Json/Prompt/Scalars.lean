import BuildFleet.Json.Number
import BuildFleet.Proofs.Json.Prompt.Basic

/-!
# JSON — faults in words, numbers and strings

The steps that read a word, a string or a number find their faults at once.  Four hexadecimal digits are
judged together, and a fault in them counts all four.

An exponent that is too large is a fault as soon as one of its digits makes it so, and that digit is the
last to count.  So the digits of an exponent are followed one by one, with the exponent that they make so
far (`prompt_limited`).

* `prompt_readLetters`, `prompt_skipText`: these give nothing but the rest, so another step follows.
* `prompt_readText`: strings that are read.
* `prompt_readNumeral`, `prompt_readNumber`: numbers, and their values.
-/

namespace BuildFleet.Json

variable {β : Type} {bytes : Bytes}

/-! ### Words -/

theorem prompt_readLetters {letters : Bytes} {k : Bytes → Except Fault (β × Bytes)}
    (hk : ∀ rest, readLetters .closed letters bytes = .ok rest → Prompt k rest) :
    Prompt (fun bytes => readLetters .closed letters bytes >>= k) bytes := by
  induction letters generalizing bytes with
  | nil => exact hk bytes rfl
  | cons letter letters ih =>
    cases bytes with
    | nil => exact .nil (leaves_atEnd _)
    | cons b rest =>
      refine .taken ?_
      simp only [readLetters] at hk ⊢
      by_cases hb : b == letter
      · simp only [if_pos hb] at hk ⊢
        exact ih hk
      · simp only [if_neg hb]
        exact .consumed _ rest

/-! ### Numbers -/

theorem prompt_readWhole (atEnd : Cause) (bytes : Bytes) : Prompt (readWhole .closed atEnd) bytes := by
  cases bytes with
  | nil => exact .nil (leaves_atEnd atEnd)
  | cons b rest =>
    refine .taken ?_
    simp only [readWhole]
    refine .ite (fun _ => ?_) fun _ => .ite (fun _ => ?_) fun _ => .consumed _ rest
    · -- a zero, behind which no digit may stand
      cases rest with
      | nil => exact .nil (Nat.le_refl 0)
      | cons d rest =>
        cases hd : isDigit d with
        | true =>
          refine .taken ?_
          simp only [hd, if_true]
          exact .peeked _ rest
        | false =>
          refine .first (fun rest => ?_) (.ok [b] (d :: rest))
          simp only [hd, Bool.false_eq_true, if_false]
    · exact .digits (fun ds rest => .ok (b :: ds) rest) rest

theorem prompt_readFraction (atEnd : Cause) (bytes : Bytes) :
    Prompt (readFraction .closed atEnd) bytes := by
  cases bytes with
  | nil => exact .nil (Nat.le_refl 0)
  | cons b rest =>
    by_cases hb : b == point
    · refine .taken ?_
      simp only [readFraction, if_pos hb]
      cases rest with
      | nil => exact .nil (leaves_atEnd atEnd)
      | cons d rest =>
        refine .taken ?_
        cases hd : isDigit d with
        | true =>
          simp only [List.takeWhile_cons_of_pos hd, List.dropWhile_cons_of_pos hd, List.isEmpty_cons,
            Bool.false_eq_true, if_false]
          exact .digits (fun ds rest => .ok (some (d :: ds)) rest) rest
        | false =>
          simp only [List.takeWhile_cons, hd, Bool.false_eq_true, if_false, List.isEmpty_nil, if_true]
          exact .peeked _ rest
    · refine .first (fun rest => ?_) (.ok none (b :: rest))
      simp only [readFraction, if_neg hb]

/-- The digits of an exponent, after its sign. -/
def exponentDigits (atEnd : Cause) (down : Bool) : Bytes → Except Fault (Option (Bool × Bytes) × Bytes)
  | [] => .error (Ending.closed.fault atEnd)
  | d :: rest =>
    if isDigit d then .ok (some (down, d :: rest.takeWhile isDigit), rest.dropWhile isDigit)
    else .error ⟨.invalidNumber, .consumed rest.length⟩

theorem readExponent_of_letter {b : UInt8} (hb : isExponentLetter b = true) (atEnd : Cause)
    (rest : Bytes) : readExponent .closed atEnd (b :: rest) =
      exponentDigits atEnd (readSign rest).1 (readSign rest).2 := by
  simp only [readExponent, if_pos hb]
  rcases readSign rest with ⟨down, _ | ⟨d, rest⟩⟩ <;> rfl

/-- The sign of an exponent is taken, and then what is behind it. -/
theorem prompt_readSign {k : Bool → Bytes → Except Fault (β × Bytes)}
    (hk : ∀ down bytes, Prompt (k down) bytes) (bytes : Bytes) :
    Prompt (fun bytes => k (readSign bytes).1 (readSign bytes).2) bytes := by
  cases bytes with
  | nil => exact .nil (hk false []).leaves
  | cons b rest =>
    by_cases hm : b == minusSign
    · refine .taken ?_
      simp only [readSign, if_pos hm]
      exact hk true rest
    by_cases hp : b == plusSign
    · refine .taken ?_
      simp only [readSign, if_neg hm, if_pos hp]
      exact hk false rest
    · refine .first (fun rest => ?_) (hk false (b :: rest))
      simp only [readSign, if_neg hm, if_neg hp]

/-- An exponent, or none, and what is made of it. -/
theorem prompt_readExponent {k : Option (Bool × Bytes) → Bytes → Except Fault (β × Bytes)} (atEnd : Cause)
    (hnone : ∀ bytes, Prompt (k none) bytes)
    (hsome : ∀ down bytes, Prompt (fun bytes =>
      k (some (down, bytes.takeWhile isDigit)) (bytes.dropWhile isDigit)) bytes) (bytes : Bytes) :
    Prompt (fun bytes => readExponent .closed atEnd bytes >>= fun (exponent, rest) => k exponent rest)
      bytes := by
  have hdigits : ∀ down bytes, Prompt (fun bytes =>
      exponentDigits atEnd down bytes >>= fun (exponent, rest) => k exponent rest) bytes := by
    intro down bytes
    cases bytes with
    | nil => exact .nil (leaves_atEnd atEnd)
    | cons d rest =>
      cases hd : isDigit d with
      | true =>
        refine .first (fun rest => ?_) (hsome down (d :: rest))
        simp only [exponentDigits, hd, if_true, List.takeWhile_cons_of_pos hd,
          List.dropWhile_cons_of_pos hd]
        rfl
      | false =>
        refine .taken ?_
        simp only [exponentDigits, hd, Bool.false_eq_true, if_false]
        exact .consumed _ rest
  cases bytes with
  | nil => exact .nil (hnone []).leaves
  | cons b rest =>
    by_cases hb : isExponentLetter b
    · refine .taken ?_
      simp only [readExponent_of_letter hb]
      exact prompt_readSign hdigits rest
    · refine .first (fun rest => ?_) (hnone (b :: rest))
      simp only [readExponent, if_neg hb]
      rfl

theorem prompt_readNumeral (atEnd : Cause) (bytes : Bytes) :
    Prompt (readNumeral .closed atEnd) bytes := by
  refine (prompt_readWhole atEnd bytes).bind fun whole rest _ => ?_
  refine (prompt_readFraction atEnd rest).bind fun fraction rest' _ => ?_
  refine prompt_readExponent (k := fun exponent rest =>
    .ok ((⟨whole, fraction, exponent⟩ : Numeral), rest)) atEnd (fun rest => .ok _ rest)
      (fun down rest => ?_) rest'
  exact .digits (fun digits => .ok (⟨whole, fraction, some (down, digits)⟩ : Numeral)) rest

theorem prompt_skipNumber {k : Bytes → Except Fault (β × Bytes)}
    (hk : ∀ rest, skipNumber .closed bytes = .ok rest → Prompt k rest) :
    Prompt (fun bytes => skipNumber .closed bytes >>= k) bytes := by
  simp only [skipNumber, bind_assoc]
  refine (prompt_readNumeral .invalidNumber bytes).bind fun n rest hn => ?_
  exact hk rest (bind_eq_ok.mpr ⟨_, hn, rfl⟩)

/-! ### The values of numbers -/

/-- A value that there may be, or else the number is out of range. -/
theorem prompt_elim (value : Option Found) (bytes : Bytes) :
    Prompt (fun rest => value.elim (.error ⟨.numberOutOfRange, .looked rest.length⟩) .ok >>=
      fun found => .ok (found, rest)) bytes := by
  cases value with
  | none => exact .looked _ bytes
  | some found => exact .ok found bytes

theorem length_takeWhile_add_dropWhile (p : UInt8 → Bool) (bytes : Bytes) :
    (bytes.takeWhile p).length + (bytes.dropWhile p).length = bytes.length := by
  rw [← List.length_append, List.takeWhile_append_dropWhile]

/-- Digits are appended up to a limit.  If one is beyond it, the number is out of range there, or has a
value that is known by then; and otherwise it has the value that the digits give it. -/
theorem prompt_limited {value : Nat → Option Found} {large : Option Found} {limit : Nat} (n : Nat)
    (bytes : Bytes) :
    Prompt (fun bytes =>
      (match appendDigits limit n (bytes.takeWhile isDigit) with
        | (exponent, []) => (value exponent).elim
          (.error ⟨.numberOutOfRange, .looked (bytes.dropWhile isDigit).length⟩) .ok
        | (_, _ :: left) => large.elim
          (.error ⟨.numberOutOfRange, .consumed (left.length + (bytes.dropWhile isDigit).length)⟩) .ok) >>=
        fun found => .ok (found, bytes.dropWhile isDigit)) bytes := by
  induction bytes generalizing n with
  | nil => exact .nil (prompt_elim (value n) []).leaves
  | cons d rest ih =>
    cases hd : isDigit d with
    | false =>
      refine .first (fun rest => ?_) (prompt_elim (value n) (d :: rest))
      simp only [List.takeWhile_cons, List.dropWhile_cons, hd, Bool.false_eq_true, if_false]
      rfl
    | true =>
      refine .taken ?_
      simp only [List.takeWhile_cons_of_pos hd, List.dropWhile_cons_of_pos hd, appendDigits]
      by_cases hl : 10 * n + digitValue d < limit
      · simp only [if_pos hl]
        exact ih _
      · -- this digit is the last to count
        simp only [if_neg hl, length_takeWhile_add_dropWhile]
        cases large with
        | none => exact .consumed _ rest
        | some found => exact .digits (fun _ rest => .ok found rest) rest

/-- The digits in front of an exponent, and those of the exponent up to the first that is too large. -/
theorem found_of_exponent (whole : Bytes) (fraction : Option Bytes) (down : Bool) (digits : Bytes)
    (negative : Bool) (rest : Bytes) :
    let s := (⟨whole, fraction, none⟩ : Numeral).significand
    (⟨whole, fraction, some (down, digits)⟩ : Numeral).found .closed negative rest =
      match appendDigits (Nat.pow 2 31) 0 digits with
      | (exponent, []) => (floatOfParts negative s (if down then -exponent else exponent)).elim
        (.error ⟨.numberOutOfRange, .looked rest.length⟩) .ok
      | (_, _ :: left) => (if s.value ≠ 0 && !down then none else some (.float negative .zero)).elim
        (.error ⟨.numberOutOfRange, .consumed (left.length + rest.length)⟩) .ok := by
  intro s
  have hs : (⟨whole, fraction, some (down, digits)⟩ : Numeral).significand = s := rfl
  simp only [Numeral.found, Numeral.overflows, Numeral.excess, Numeral.value?, hs]
  rcases appendDigits (Nat.pow 2 31) 0 digits with ⟨exponent, _ | ⟨d, left⟩⟩
  · rfl
  · simp only [List.isEmpty_cons, Bool.not_false, Bool.true_and, Bool.false_eq_true, if_false,
      List.length_cons, Nat.add_sub_cancel]
    split <;> rfl

theorem prompt_found {n : Numeral} (h : n.exponent = none) (negative : Bool) (bytes : Bytes) :
    Prompt (fun rest => n.found .closed negative rest >>= fun found => .ok (found, rest)) bytes := by
  have hfound : ∀ rest, n.found .closed negative rest =
      (n.value? negative).elim (.error ⟨.numberOutOfRange, .looked rest.length⟩) .ok := by
    intro rest
    simp only [Numeral.found, Numeral.overflows, h]
    rfl
  simp only [hfound]
  exact prompt_elim _ bytes

theorem prompt_readNumber (negative : Bool) (bytes : Bytes) :
    Prompt (readNumber .closed negative) bytes := by
  -- the exponent and the value are one step, because a fault in the value can lie inside of the exponent
  show Prompt (fun bytes => readNumber .closed negative bytes) bytes
  simp only [readNumber, readNumeral, bind_assoc]
  refine (prompt_readWhole _ bytes).bind fun whole rest _ => ?_
  dsimp only
  refine (prompt_readFraction _ rest).bind fun fraction rest' _ => ?_
  dsimp only
  refine prompt_readExponent (k := fun exponent rest =>
    (⟨whole, fraction, exponent⟩ : Numeral).found .closed negative rest >>= fun found =>
      .ok (found, rest)) _ (fun rest => prompt_found rfl negative rest) (fun down rest => ?_) rest'
  simp only [found_of_exponent]
  exact prompt_limited 0 rest

/-! ### Strings -/

theorem prompt_readCodeUnit (bytes : Bytes) : Prompt (readCodeUnit .closed) bytes := by
  rcases bytes with _ | ⟨a, _ | ⟨b, _ | ⟨c, _ | ⟨d, rest⟩⟩⟩⟩
  · exact .nil (leaves_atEnd _)
  · exact .taken (.nil (leaves_atEnd _))
  · exact .taken (.taken (.nil (leaves_atEnd _)))
  · exact .taken (.taken (.taken (.nil (leaves_atEnd _))))
  · refine .taken (.taken (.taken (.taken ?_)))
    simp only [readCodeUnit]
    cases codeUnit? a b c d with
    | some unit => exact .ok unit rest
    | none => exact .consumed _ rest

theorem prompt_continueEscape {expected : UInt8} {k : Bytes → Except Fault (β × Bytes)}
    (hk : ∀ rest, Prompt k rest) (bytes : Bytes) :
    Prompt (fun bytes => continueEscape .closed expected bytes >>= k) bytes := by
  cases bytes with
  | nil => exact .nil (leaves_atEnd _)
  | cons b rest =>
    refine .taken ?_
    simp only [continueEscape]
    by_cases hb : b == expected
    · simp only [if_pos hb]
      exact hk rest
    · simp only [if_neg hb]
      exact .consumed _ rest

theorem prompt_readUnitEscape (bytes : Bytes) : Prompt (readUnitEscape .closed) bytes := by
  refine (prompt_readCodeUnit bytes).bind fun unit rest _ => ?_
  refine .ite (fun _ => .consumed _ rest) fun _ => .ite (fun _ => ?_) fun _ => .ok _ rest
  refine prompt_continueEscape (prompt_continueEscape fun rest => ?_) rest
  refine (prompt_readCodeUnit rest).bind fun trailing rest' _ => ?_
  exact .ite (fun _ => .ok _ rest') fun _ => .consumed _ rest'

theorem prompt_readEscape (bytes : Bytes) : Prompt (readEscape .closed) bytes := by
  cases bytes with
  | nil => exact .nil (leaves_atEnd _)
  | cons b rest =>
    refine .taken ?_
    simp only [readEscape]
    cases shortEscape? b with
    | some byte => exact .ok [byte] rest
    | none => exact .ite (fun _ => prompt_readUnitEscape rest) fun _ => .consumed _ rest

theorem prompt_skipEscape {k : Bytes → Except Fault (β × Bytes)}
    (hk : ∀ rest, skipEscape .closed bytes = .ok rest → Prompt k rest) :
    Prompt (fun bytes => skipEscape .closed bytes >>= k) bytes := by
  cases bytes with
  | nil => exact .nil (leaves_atEnd _)
  | cons b rest =>
    refine .taken ?_
    simp only [skipEscape] at hk ⊢
    by_cases hs : (shortEscape? b).isSome
    · simp only [if_pos hs] at hk ⊢
      exact hk rest rfl
    by_cases hu : b == letterU
    · simp only [if_neg hs, if_pos hu, bind_assoc] at hk ⊢
      refine (prompt_readCodeUnit rest).bind fun unit rest' h => ?_
      exact hk rest' (bind_eq_ok.mpr ⟨_, h, rfl⟩)
    · simp only [if_neg hs, if_neg hu]
      exact .consumed _ rest

theorem prompt_readTextBytes (done bytes : Bytes) : Prompt (readTextBytes .closed done) bytes := by
  induction hn : bytes.length using Nat.strongRecOn generalizing done bytes with
  | ind n ih =>
    subst hn
    cases bytes with
    | nil =>
      refine .nil ?_
      rw [readTextBytes_nil]
      exact leaves_atEnd _
    | cons b rest =>
      refine .taken ?_
      simp only [readTextBytes_cons]
      refine .ite (fun _ => .ok done.reverse rest) fun _ => .ite (fun _ => ?_) fun _ =>
        .ite (fun _ => .consumed _ rest) fun _ => ?_
      · refine (prompt_readEscape rest).bind fun decoded rest' h => ?_
        exact ih _ (Nat.lt_succ_of_lt (length_of_readEscape h)) (decoded.reverse ++ done) rest' rfl
      · exact ih _ (Nat.lt_succ_self _) (b :: done) rest rfl

theorem prompt_readText (bytes : Bytes) : Prompt (readText .closed) bytes := by
  refine (prompt_readTextBytes [] bytes).bind fun decoded rest _ => ?_
  dsimp only
  cases Text.Utf8.decode? decoded with
  | some s => exact .ok s rest
  | none => exact .fault _ (fun n => .behind n _) (fun _ => rfl) rest

theorem prompt_skipText {k : Bytes → Except Fault (β × Bytes)}
    (hk : ∀ rest, skipText .closed bytes = .ok rest → Prompt k rest) :
    Prompt (fun bytes => skipText .closed bytes >>= k) bytes := by
  induction hn : bytes.length using Nat.strongRecOn generalizing bytes with
  | ind n ih =>
    subst hn
    cases bytes with
    | nil =>
      refine .nil ?_
      rw [skipText_nil]
      exact leaves_atEnd _
    | cons b rest =>
      by_cases hq : b == quote
      · refine .taken ?_
        simp only [skipText_cons, if_pos hq] at hk ⊢
        exact hk rest rfl
      by_cases hb : b == backslash
      · refine .taken ?_
        simp only [skipText_cons, if_neg hq, if_pos hb, bind_assoc] at hk ⊢
        refine prompt_skipEscape fun rest' h => ?_
        refine ih _ (Nat.lt_succ_of_lt (length_of_skipEscape h)) (fun rest'' h' => ?_) rfl
        exact hk rest'' (bind_eq_ok.mpr ⟨_, h, h'⟩)
      by_cases hc : isControl b
      · -- the control character is only looked at
        refine .first (fun rest => ?_) (.looked .controlCharacter (b :: rest))
        simp only [skipText_cons, if_neg hq, if_neg hb, if_pos hc]
        rfl
      · refine .taken ?_
        simp only [skipText_cons, if_neg hq, if_neg hb, if_neg hc] at hk ⊢
        exact ih _ (Nat.lt_succ_self _) hk rfl

end BuildFleet.Json
