import BuildFleet.Json.Parser.Number
import BuildFleet.Json.Simulation

/-!
# JSON — numbers, and the bytes ahead

A parser sees the end of a number by looking at the byte behind it, and a stream may fail there.  The
functions of the bytes tell the parts of a number without looking; they are followed up to the byte behind
(`looking`), and since the failure is found in the end all the same, nothing is changed by looking early
(`bind_looking`).
-/

namespace BuildFleet.Json

variable {α γ : Type} {i : Input} {e : Ending} {rest : Bytes}

/-- The bytes go on, or end for good, or the stream fails. -/
theorem closed_or_failing (e : Ending) (rest : Bytes) :
    (rest = [] → e = .closed) ∨ rest = [] ∧ ∃ error, e = .failing error := by
  cases rest with
  | cons => exact .inl fun h => nomatch h
  | nil =>
    cases e with
    | closed => exact .inl fun _ => rfl
    | failing error => exact .inr ⟨rfl, error, rfl⟩

theorem look_of_closed (h : rest = [] → e = .closed) : e.look rest = .ok rest := by
  cases rest with
  | cons => cases e <;> rfl
  | nil =>
    rw [h rfl]
    rfl

/-- Looks at the byte behind a value. -/
def looking (e : Ending) (w : α × Bytes) : Except Fault (α × Bytes) := do
  let rest ← e.look w.2
  .ok (w.1, rest)

theorem looking_of_closed (h : rest = [] → e = .closed) (v : α) : looking e (v, rest) = .ok (v, rest) := by
  rw [looking, look_of_closed h]
  rfl

theorem fails_looking (v : α) : Fails i (looking i.ending (v, [])) :=
  Fails.look.bind _

/-- It makes no difference to look at the byte behind a part, if the failure of the stream is found there in
any case. -/
theorem bind_looking {f : α × Bytes → Except Fault γ} (h : ∀ v, Fails i (f (v, [])))
    (x : Except Fault (α × Bytes)) : x >>= f = (x >>= looking i.ending) >>= f := by
  cases x with
  | error fault => rfl
  | ok w =>
    obtain ⟨v, rest⟩ := w
    show f (v, rest) = looking i.ending (v, rest) >>= f
    cases hending : i.ending with
    | closed => rw [looking_of_closed (fun _ => rfl)]; rfl
    | failing error =>
      cases rest with
      | cons => rfl
      | nil => exact h v error hending

/-! ### Digits -/

/-- Digits that may be too large, from one of them on. -/
structure Limit where
  tooLarge : Bytes → Bool
  excess : Bytes → Bytes
  first (b : UInt8) : tooLarge [b] = false
  /-- They are too large as soon as the digit is there that makes them so, whatever comes behind. -/
  sudden {taken : Bytes} {b : UInt8} (rest : Bytes) : tooLarge taken = false →
    tooLarge (taken ++ [b]) = true →
      tooLarge (taken ++ b :: rest) = true ∧ excess (taken ++ b :: rest) = b :: rest

/-- Digits of any size. -/
def Limit.none : Limit where
  tooLarge _ := false
  excess _ := []
  first _ := rfl
  sudden _ _ h := nomatch h

theorem appendDigits_append {limit : Nat} {taken : Bytes} {n : Nat}
    (h : (appendDigits limit n taken).2 = []) (rest : Bytes) :
    appendDigits limit n (taken ++ rest) = appendDigits limit (appendDigits limit n taken).1 rest := by
  induction taken generalizing n with
  | nil => rfl
  | cons d taken ih =>
    rw [appendDigits] at h
    rw [List.cons_append, appendDigits, appendDigits]
    split at h
    · rename_i hfits
      rw [if_pos hfits, if_pos hfits]
      exact ih h
    · cases h

/-- A digit that does not fit is left, and those behind it. -/
theorem appendDigits_sudden {limit : Nat} {taken rest : Bytes} {n : Nat} {b : UInt8}
    (h : (appendDigits limit n taken).2 = []) (hb : (appendDigits limit n (taken ++ [b])).2 ≠ []) :
    (appendDigits limit n (taken ++ b :: rest)).2 = b :: rest := by
  rw [appendDigits_append h, appendDigits] at hb
  rw [appendDigits_append h, appendDigits]
  split at hb
  · exact absurd rfl hb
  · rename_i hlarge
    rw [if_neg hlarge]

theorem Numeral.overflows_iff {n : Numeral} {down : Bool} {digits : Bytes}
    (h : n.exponent = some (down, digits)) :
    n.overflows = true ↔ n.excess ≠ [] ∧ n.significand.value ≠ 0 ∧ down = false := by
  simp [Numeral.overflows, h, and_assoc]

/-- The digits of an exponent, behind the parts of a number that it makes too large. -/
def overflowLimit (whole : Bytes) (fraction : Option Bytes) (negative : Bool) : Limit where
  tooLarge digits := Numeral.overflows ⟨whole, fraction, some (negative, digits)⟩
  excess digits := Numeral.excess ⟨whole, fraction, some (negative, digits)⟩
  first b := by
    have hb : 10 * 0 + digitValue b < Nat.pow 2 31 := by
      show 10 * 0 + (b.toNat - 0x30) < 2147483648
      have hlt := b.toNat_lt
      omega
    have hexcess : Numeral.excess ⟨whole, fraction, some (negative, [b])⟩ = [] := by
      show (if _ then ((_, []) : Nat × Bytes) else _).2 = []
      rw [if_pos hb]
    rw [Bool.eq_false_iff, ne_eq, Numeral.overflows_iff rfl, hexcess]
    exact fun h => h.1 rfl
  sudden {taken b} rest htaken hlarge := by
    rw [Bool.eq_false_iff, ne_eq, Numeral.overflows_iff rfl] at htaken
    rw [Numeral.overflows_iff rfl] at hlarge ⊢
    have hfits : Numeral.excess ⟨whole, fraction, some (negative, taken)⟩ = [] :=
      Classical.not_not.mp fun h => htaken ⟨h, hlarge.2⟩
    have hexcess : Numeral.excess ⟨whole, fraction, some (negative, taken ++ b :: rest)⟩ = b :: rest :=
      appendDigits_sudden hfits hlarge.1
    exact ⟨⟨fun hnil => List.cons_ne_nil b rest (hexcess.symm.trans hnil), hlarge.2⟩, hexcess⟩

/-- The digits, with these bytes behind them. -/
def Limit.check (limit : Limit) (e : Ending) (digits rest : Bytes) : Except Fault (Bytes × Bytes) :=
  if limit.tooLarge digits then
    .error ⟨.numberOutOfRange, .consumed ((limit.excess digits).length - 1 + rest.length)⟩
  else
    looking e (digits, rest)

/-- The digits behind a point, and then the byte behind them. -/
theorem fraction_looking (atEnd : Cause) (rest : Bytes) :
    (if (rest.takeWhile isDigit).isEmpty = true then .error (missingDigit e atEnd rest)
        else .ok (some (rest.takeWhile isDigit), rest.dropWhile isDigit)) >>= looking e =
      looking e (rest.takeWhile isDigit, rest.dropWhile isDigit) >>= fun w =>
        if w.1.isEmpty then .error (missingDigit e atEnd w.2) else .ok (some w.1, w.2) := by
  have hsplit : rest.takeWhile isDigit ++ rest.dropWhile isDigit = rest := List.takeWhile_append_dropWhile
  generalize rest.takeWhile isDigit = taken at hsplit
  generalize rest.dropWhile isDigit = behind at hsplit
  subst hsplit
  cases taken with
  | nil =>
    cases behind with
    | nil => cases e <;> rfl
    | cons => cases e <;> rfl
  | cons b taken =>
    cases behind with
    | nil => cases e <;> rfl
    | cons => cases e <;> rfl

/-- Looks at the byte behind an exponent, whose digits may be too large. -/
def checked (e : Ending) (limit : Bool → Limit) :
    Option (Bool × Bytes) × Bytes → Except Fault (Option (Bool × Bytes) × Bytes)
  | (some (negative, digits), rest) => do
    let (digits, rest) ← (limit negative).check e digits rest
    .ok (some (negative, digits), rest)
  | (none, rest) => looking e (none, rest)

section
variable {limit : Bool → Limit} {negative : Bool} {digits : Bytes}

theorem checked_of_large (h : (limit negative).tooLarge digits = true) :
    checked e limit (some (negative, digits), rest) =
      .error ⟨.numberOutOfRange, .consumed (((limit negative).excess digits).length - 1 + rest.length)⟩ := by
  rw [checked, Limit.check, if_pos h]
  rfl

theorem checked_of_fits (h : (limit negative).tooLarge digits = false) :
    checked e limit (some (negative, digits), rest) = looking e (some (negative, digits), rest) := by
  rw [checked, Limit.check, if_neg (Bool.eq_false_iff.mp h)]
  cases e <;> cases rest <;> rfl

end

/-- The sign and the digits behind the letter of an exponent. -/
theorem exponent_looking (atEnd : Cause) (limit : Bool → Limit) {b : UInt8} (hb : isExponentLetter b = true)
    (rest : Bytes) : readExponent e atEnd (b :: rest) >>= checked e limit =
      (e.look rest >>= fun rest => .ok (readSign rest)) >>= fun w =>
        match w.2 with
        | [] => .error (e.fault atEnd)
        | d :: rest =>
          if isDigit d then
            (limit w.1).check e (d :: rest.takeWhile isDigit) (rest.dropWhile isDigit) >>= fun digits =>
              .ok (some (w.1, digits.1), digits.2)
          else
            .error ⟨.invalidNumber, .consumed rest.length⟩ := by
  rw [readExponent, if_pos hb]
  rcases closed_or_failing e rest with hclosed | ⟨rfl, error, rfl⟩
  · rw [look_of_closed hclosed]
    show _ = (match (readSign rest).2 with
      | [] => _
      | d :: rest => _)
    rcases readSign rest with ⟨negative, _ | ⟨d, more⟩⟩
    · rfl
    · dsimp only
      split <;> rfl
  · rfl

/-- The value of a number shows when the byte behind it is looked at, unless the exponent alone is too
large. -/
theorem found_eq (n : Numeral) (negative : Bool) (rest : Bytes) :
    (n.found e negative rest >>= fun found => .ok (found, rest)) =
      checked e (overflowLimit n.whole n.fraction) (n.exponent, rest) >>= fun exponent =>
        ((⟨n.whole, n.fraction, exponent.1⟩ : Numeral).value? negative).elim
          (.error ⟨.numberOutOfRange, .looked exponent.2.length⟩) fun found => .ok (found, exponent.2) := by
  obtain ⟨whole, fraction, exponent⟩ := n
  have hlooking (value? : Option (Bool × Bytes) → Option Found) :
      ((e.look rest >>= fun rest =>
            (value? exponent).elim (.error ⟨.numberOutOfRange, .looked rest.length⟩) .ok) >>=
          fun found => .ok (found, rest)) =
        looking e (exponent, rest) >>= fun exponent =>
          (value? exponent.1).elim (.error ⟨.numberOutOfRange, .looked exponent.2.length⟩) fun found =>
            .ok (found, exponent.2) := by
    have hvalue (value : Option Found) : ((value.elim (.error ⟨.numberOutOfRange, .looked rest.length⟩) .ok :
          Except Fault Found) >>= fun found => .ok (found, rest)) =
        value.elim (.error ⟨.numberOutOfRange, .looked rest.length⟩) fun found => .ok (found, rest) := by
      cases value <;> rfl
    rcases closed_or_failing e rest with hclosed | ⟨rfl, error, rfl⟩
    · rw [look_of_closed hclosed, looking_of_closed hclosed]
      exact hvalue (value? exponent)
    · rfl
  have hvalue := hlooking fun exponent => (⟨whole, fraction, exponent⟩ : Numeral).value? negative
  rw [Numeral.found]
  cases exponent with
  | none =>
    rw [if_neg (show ¬Numeral.overflows ⟨whole, fraction, none⟩ = true from Bool.false_ne_true)]
    exact hvalue
  | some exponent =>
    obtain ⟨down, digits⟩ := exponent
    by_cases hlarge : Numeral.overflows ⟨whole, fraction, some (down, digits)⟩ = true
    · rw [if_pos hlarge, checked_of_large hlarge]
      rfl
    · have hfits := Bool.eq_false_iff.mpr hlarge
      rw [if_neg hlarge, checked_of_fits hfits]
      exact hvalue

namespace Simulation

variable {σ : Type} [Cursor σ] (sim : Simulation σ i) {s : σ} {ahead : Bytes} {looked : Bool}

theorem took_looking (hclosed : rest = [] → i.ending = .closed) (h : sim.At s rest true) (v : α) :
    Given (sim.Took true) (looking i.ending (v, rest)) v s := by
  rw [looking_of_closed hclosed]
  exact sim.took h v

theorem took_looking_cons {b : UInt8} (h : sim.At s (b :: rest) true) (v : α) :
    Given (sim.Took true) (looking i.ending (v, b :: rest)) v s :=
  sim.took_looking (fun hnil => absurd hnil (List.cons_ne_nil b rest)) h v

theorem follows_digits (limit : Limit) (done : Bytes) (h : sim.Sees s ahead)
    (hdone : limit.tooLarge done.reverse = false) :
    Follows i sim.At (Given (sim.Took true))
      (limit.check i.ending (done.reverse ++ ahead.takeWhile isDigit) (ahead.dropWhile isDigit))
      (Parser.loop (Parser.digitTurn limit.tooLarge) done s) := by
  refine sim.follows_loop
    (I := fun (done : Bytes) s ahead => sim.Sees s ahead ∧ limit.tooLarge done.reverse = false)
    (F := fun (done : Bytes) ahead =>
      limit.check i.ending (done.reverse ++ ahead.takeWhile isDigit) (ahead.dropWhile isDigit))
    (fun _ _ _ h => h.1) ?_ ⟨h, hdone⟩
  rintro done s ahead ⟨⟨looked, hat⟩, hdone⟩
  have hstop : limit.check i.ending (done.reverse ++ []) ahead = looking i.ending (done.reverse, ahead) := by
    rw [List.append_nil, Limit.check, if_neg (Bool.eq_false_iff.mp hdone)]
  refine (sim.peek hat).bind ?_ fun s' hclosed hat => ?_
  · rintro rfl
    exact hstop ▸ fails_looking _
  · cases ahead with
    | nil => exact .ok (hstop ▸ sim.took_looking hclosed hat _)
    | cons b rest =>
      dsimp only [List.head?_cons]
      split
      · rename_i hb
        rw [List.takeWhile_cons_of_pos hb, List.dropWhile_cons_of_pos hb]
        obtain ⟨s'', hskip, hat⟩ := sim.skip_cons hat
        rw [Parser.bind_of_ok hskip, List.reverse_cons]
        split
        · rename_i hlarge
          obtain ⟨hlarge, hexcess⟩ := limit.sudden (rest.takeWhile isDigit) hdone hlarge
          have hlength : (rest.takeWhile isDigit).length + (rest.dropWhile isDigit).length = rest.length := by
            rw [← List.length_append, List.takeWhile_append_dropWhile]
          rw [Limit.check, if_pos hlarge, hexcess, List.length_cons, Nat.add_sub_cancel, hlength]
          exact sim.follows_fail hat .numberOutOfRange
        · rename_i hfits
          refine .ok ⟨rest, ⟨⟨false, hat⟩, ?_⟩, Nat.lt_succ_self _, ?_⟩
          · rw [List.reverse_cons]
            exact Bool.eq_false_iff.mpr hfits
          · dsimp only
            rw [List.reverse_cons, List.append_assoc]
            rfl
      · rename_i hb
        rw [List.takeWhile_cons_of_neg hb, List.dropWhile_cons_of_neg hb]
        exact .ok (hstop ▸ sim.took_looking hclosed hat _)

theorem follows_plainDigits (h : sim.Sees s ahead) :
    Follows i sim.At (Given (sim.Took true))
      (looking i.ending (ahead.takeWhile isDigit, ahead.dropWhile isDigit)) (Parser.digits s) :=
  sim.follows_digits .none [] h rfl

/-! ### Parts -/

theorem follows_whole (atEnd : Cause) (h : sim.At s ahead looked) :
    Follows i sim.At (Given (sim.Took true)) (readWhole i.ending atEnd ahead >>= looking i.ending)
      (Parser.whole atEnd s) := by
  cases ahead with
  | nil => exact sim.follows_nextOr_nil h _
  | cons b rest =>
    obtain ⟨s', hnext, hat⟩ := sim.nextOr_cons h atEnd
    rw [Parser.whole, Parser.bind_of_ok hnext, readWhole.eq_def]
    dsimp only
    split
    · cases rest with
      | nil =>
        exact (sim.peek hat).bind (fun _ => fails_looking _) fun s' hclosed hat =>
          .ok (sim.took_looking hclosed hat [b])
      | cons d rest =>
        obtain ⟨s'', hpeek, hat⟩ := sim.peek_cons hat
        rw [Parser.bind_of_ok hpeek]
        dsimp only
        split
        · exact sim.follows_failPeeked hat .invalidNumber
        · exact .ok (sim.took_looking_cons hat [b])
    split
    · have hlooking : looking i.ending (b :: rest.takeWhile isDigit, rest.dropWhile isDigit) =
          looking i.ending (rest.takeWhile isDigit, rest.dropWhile isDigit) >>=
            fun w => .ok (b :: w.1, w.2) := by
        rw [looking, looking, bind_assoc]
        rfl
      show Follows _ _ _ (looking _ _) _
      rw [hlooking]
      refine (sim.follows_plainDigits ⟨false, hat⟩).bind fun digits w s _ hw => ?_
      obtain ⟨rfl, hat⟩ := hw
      exact .ok (sim.took hat _)
    · exact sim.follows_fail hat .invalidNumber

theorem follows_fraction (atEnd : Cause) (h : sim.Sees s ahead) :
    Follows i sim.At (Given (sim.Took true)) (readFraction i.ending atEnd ahead >>= looking i.ending)
      (Parser.fraction atEnd s) := by
  obtain ⟨looked, hat⟩ := h
  cases ahead with
  | nil =>
    exact (sim.peek hat).bind (fun _ => fails_looking _) fun s' hclosed hat =>
      .ok (sim.took_looking hclosed hat Option.none)
  | cons b rest =>
    obtain ⟨s', hpeek, hat⟩ := sim.peek_cons hat
    rw [Parser.fraction, Parser.bind_of_ok hpeek, readFraction]
    dsimp only
    split
    · obtain ⟨s'', hskip, hat⟩ := sim.skip_cons hat
      rw [Parser.bind_of_ok hskip]
      rw [fraction_looking]
      refine (sim.follows_plainDigits ⟨false, hat⟩).bind fun _ w s _ hw => ?_
      obtain ⟨taken, behind⟩ := w
      obtain ⟨rfl, hat⟩ := hw
      dsimp only at hat ⊢
      split
      · cases behind with
        | nil =>
          exact (sim.peek hat).bind (fun _ => .fault atEnd) fun s' hclosed hat =>
            sim.follows_failPeeked_atEnd (hclosed rfl) hat atEnd
        | cons c rest =>
          obtain ⟨s', hpeek, hat⟩ := sim.peek_cons hat
          rw [Parser.bind_of_ok hpeek]
          exact sim.follows_failPeeked hat .invalidNumber
      · exact .ok (sim.took hat _)
    · exact .ok (sim.took_looking_cons hat Option.none)

theorem follows_sign (h : sim.Sees s ahead) :
    Follows i sim.At (Given fun negative w s => negative = w.1 ∧ sim.Sees s w.2)
      (i.ending.look ahead >>= fun ahead => .ok (readSign ahead)) (Parser.sign s) := by
  obtain ⟨looked, hat⟩ := h
  refine (sim.peek hat).bind ?_ fun s' hclosed hat => ?_
  · rintro rfl
    exact Fails.look.bind _
  · rw [look_of_closed hclosed]
    cases ahead with
    | nil => exact .ok ⟨(false, []), rfl, rfl, true, hat⟩
    | cons b rest =>
      show Follows _ _ _ (.ok (readSign (b :: rest))) _
      rw [readSign]
      dsimp only [List.head?_cons]
      split
      · exact .ok ⟨(true, rest), rfl, rfl, false, sim.skip hat⟩
      split
      · exact .ok ⟨(false, rest), rfl, rfl, false, sim.skip hat⟩
      · exact .ok ⟨(false, b :: rest), rfl, rfl, true, hat⟩

theorem follows_exponent (atEnd : Cause) (limit : Bool → Limit) (h : sim.Sees s ahead) :
    Follows i sim.At (Given (sim.Took true))
      (readExponent i.ending atEnd ahead >>= checked i.ending limit)
      (Parser.exponent atEnd (fun negative => (limit negative).tooLarge) s) := by
  obtain ⟨looked, hat⟩ := h
  cases ahead with
  | nil =>
    exact (sim.peek hat).bind (fun _ => fails_looking _) fun s' hclosed hat =>
      .ok (sim.took_looking hclosed hat Option.none)
  | cons b rest =>
    obtain ⟨s', hpeek, hat⟩ := sim.peek_cons hat
    rw [Parser.exponent, Parser.bind_of_ok hpeek]
    dsimp only
    split
    · rename_i hb
      obtain ⟨s'', hskip, hat⟩ := sim.skip_cons hat
      rw [Parser.bind_of_ok hskip, exponent_looking atEnd limit hb]
      refine (sim.follows_sign ⟨false, hat⟩).bind fun negative w s _ hw => ?_
      obtain ⟨negative, behind⟩ := w
      obtain ⟨rfl, looked, hat⟩ := hw
      cases behind with
      | nil => exact sim.follows_nextOr_nil hat _
      | cons d behind =>
        obtain ⟨s', hnext, hat⟩ := sim.nextOr_cons hat atEnd
        rw [Parser.bind_of_ok hnext]
        dsimp only
        split
        · refine (sim.follows_digits (limit negative) [d] ⟨false, hat⟩ ((limit negative).first d)).bind
            fun digits w s _ hw => ?_
          obtain ⟨rfl, hat⟩ := hw
          exact .ok (sim.took hat _)
        · exact sim.follows_fail hat .invalidNumber
    · rename_i hb
      rw [readExponent, if_neg hb]
      exact .ok (sim.took_looking_cons hat Option.none)

theorem follows_numeral (atEnd : Cause) (tooLarge : Numeral → Bool)
    (limit : Bytes → Option Bytes → Bool → Limit)
    (hlimit : ∀ whole fraction, (fun negative => (limit whole fraction negative).tooLarge) =
      fun negative digits => tooLarge ⟨whole, fraction, some (negative, digits)⟩)
    (h : sim.At s ahead looked) :
    Follows i sim.At (Given (sim.Took true))
      (readNumeral i.ending atEnd ahead >>= fun w =>
        checked i.ending (limit w.1.whole w.1.fraction) (w.1.exponent, w.2) >>= fun exponent =>
          .ok (⟨w.1.whole, w.1.fraction, exponent.1⟩, exponent.2))
      (Parser.numeral atEnd tooLarge s) := by
  simp only [readNumeral, bind_assoc]
  have hlast (whole : Bytes) (fraction : Option Bytes) : Fails i
      (readExponent i.ending atEnd [] >>= fun exponent =>
        checked i.ending (limit whole fraction) exponent >>= fun exponent =>
          .ok ((⟨whole, fraction, exponent.1⟩ : Numeral), exponent.2)) :=
    (fails_looking (Option.none : Option (Bool × Bytes))).bind _
  rw [bind_looking fun whole => hlast whole Option.none]
  refine (sim.follows_whole atEnd h).bind fun whole w s _ hw => ?_
  obtain ⟨rfl, hat⟩ := hw
  rw [bind_looking fun fraction => hlast w.1 fraction]
  refine (sim.follows_fraction atEnd ⟨true, hat⟩).bind fun fraction w' s _ hw' => ?_
  obtain ⟨rfl, hat⟩ := hw'
  have hexponent := sim.follows_exponent atEnd (limit w.1 w'.1) ⟨true, hat⟩
  rw [hlimit] at hexponent
  show Follows _ _ _ (readExponent i.ending atEnd w'.2 >>= fun exponent =>
    checked i.ending (limit w.1 w'.1) exponent >>= fun exponent =>
      .ok ((⟨w.1, w'.1, exponent.1⟩ : Numeral), exponent.2)) _
  rw [← bind_assoc]
  refine hexponent.bind fun exponent w'' s _ hw'' => ?_
  obtain ⟨rfl, hat⟩ := hw''
  exact .ok (sim.took hat _)

theorem follows_skipNumber (h : sim.At s ahead looked) :
    Follows i sim.At (Given (sim.Passed true)) (skipNumber i.ending ahead) (Parser.skipNumber s) := by
  have hskip : skipNumber i.ending ahead = (readNumeral i.ending .invalidNumber ahead >>= fun w =>
      checked i.ending (fun _ => Limit.none) (w.1.exponent, w.2) >>= fun exponent =>
        .ok ((⟨w.1.whole, w.1.fraction, exponent.1⟩ : Numeral), exponent.2)) >>= fun w => .ok w.2 := by
    rw [bind_assoc]
    refine congrArg _ (funext fun w => ?_)
    obtain ⟨⟨whole, fraction, exponent⟩, rest⟩ := w
    cases exponent with
    | none => cases i.ending <;> cases rest <;> rfl
    | some exponent => cases i.ending <;> cases rest <;> rfl
  rw [hskip]
  refine (sim.follows_numeral .invalidNumber _ (fun _ _ _ => Limit.none) (fun _ _ => rfl) h).bind
    fun n w s _ hw => ?_
  exact .ok (sim.passed hw.2)

theorem follows_number (negative : Bool) (h : sim.At s ahead looked) :
    Follows i sim.At (Given (sim.Took true)) (readNumber i.ending negative ahead)
      (Parser.number negative s) := by
  have hread : readNumber i.ending negative ahead =
      (readNumeral i.ending (.ended .value) ahead >>= fun w =>
        checked i.ending (overflowLimit w.1.whole w.1.fraction) (w.1.exponent, w.2) >>= fun exponent =>
          .ok ((⟨w.1.whole, w.1.fraction, exponent.1⟩ : Numeral), exponent.2)) >>= fun w =>
      (w.1.value? negative).elim (.error ⟨.numberOutOfRange, .looked w.2.length⟩) fun found =>
        .ok (found, w.2) := by
    rw [bind_assoc]
    refine congrArg _ (funext fun w => ?_)
    rw [bind_assoc]
    exact found_eq w.1 negative w.2
  rw [hread]
  refine (sim.follows_numeral (.ended .value) _ overflowLimit (fun _ _ => rfl) h).bind fun n w s _ hw => ?_
  obtain ⟨rfl, hat⟩ := hw
  cases w.1.value? negative with
  | some found => exact .ok (sim.took hat found)
  | none => exact sim.follows_fail_looked hat .numberOutOfRange

end Simulation

end BuildFleet.Json
