import BuildFleet.Proofs.Json.Forward.Skipping
import BuildFleet.Proofs.Json.Prompt.Scalars

/-!
# JSON — faults in values that are passed over

In a value nobody asks for a fault is found at once too, however deep it lies (`prompt_skipThen`).  The
steps between its parts find out at each byte behind blanks whether it may stand there.
-/

namespace BuildFleet.Json

variable {β : Type} {bytes : Bytes} {k : Bytes → Except Fault (β × Bytes)}

/-! ### Keys and frames -/

theorem prompt_readColon (hk : ∀ rest, readColon .closed bytes = .ok rest → Prompt k rest) :
    Prompt (fun bytes => readColon .closed bytes >>= k) bytes := by
  refine .skips (fun bytes => ?_) (leaves_atEnd _) fun b rest hbytes hb => .taken ?_
  · simp only [readColon, skipBlanks_skipBlanks]
  · simp only [readColon, hb, hbytes] at hk ⊢
    by_cases hc : b == colon
    · simp only [if_pos hc] at hk ⊢
      exact hk rest rfl
    · simp only [if_neg hc]
      exact .peeked _ rest

theorem prompt_skipKey (hk : ∀ rest, Prompt k rest) (bytes : Bytes) :
    Prompt (fun bytes => skipKey .closed bytes >>= k) bytes := by
  refine .skips (fun bytes => ?_) (leaves_atEnd _) fun b rest _ hb => .taken ?_
  · rw [skipKey_skipBlanks]
  · simp only [skipKey_bind (hb _)]
    refine .ite (fun _ => ?_) fun _ => .peeked _ rest
    exact prompt_skipText fun rest' _ => prompt_readColon fun rest'' _ => hk rest''

theorem prompt_toValue (frame : Frame) (hk : ∀ rest, Prompt k rest) (bytes : Bytes) :
    Prompt (fun bytes => frame.toValue .closed bytes >>= k) bytes := by
  cases frame with
  | list => exact hk bytes
  | object => exact prompt_skipKey hk bytes

theorem prompt_enter (frame : Frame) (bytes : Bytes) : Prompt (frame.enter .closed) bytes := by
  refine .skips (fun bytes => ?_) (leaves_atEnd _) fun b rest _ hb => ?_
  · simp only [Frame.enter, skipBlanks_skipBlanks]
  · by_cases hclose : b == frame.closing
    · refine .taken ?_
      simp only [Frame.enter, hb, if_pos hclose]
      exact .ok Stage.after rest
    · refine .first (fun rest => ?_) (prompt_toValue frame (.ok Stage.value) (b :: rest))
      simp only [Frame.enter, hb, if_neg hclose]

theorem prompt_advance (frame : Frame) (bytes : Bytes) : Prompt (frame.advance .closed) bytes := by
  refine .skips (fun bytes => ?_) (leaves_atEnd _) fun b rest _ hb => .taken ?_
  · simp only [Frame.advance, skipBlanks_skipBlanks]
  · simp only [Frame.advance, hb]
    refine .ite (fun _ => prompt_toValue frame (.ok Stage.value) rest) fun _ => ?_
    refine .ite (fun _ => .ok Stage.after rest) fun _ => ?_
    exact .peeked _ rest

/-! ### Values -/

/-- A scalar, from its first byte on. -/
theorem prompt_skipScalar {b : UInt8} {rest : Bytes}
    (hk : ∀ rest', skipScalar .closed b rest = .ok rest' → Prompt k rest') :
    Prompt (fun bytes => skipScalar .closed b bytes.tail >>= k) (b :: rest) := by
  by_cases hnull : b == letterN
  · refine .taken ?_
    simp only [skipScalar, if_pos hnull, List.tail_cons] at hk ⊢
    exact prompt_readLetters hk
  by_cases htrue : b == letterT
  · refine .taken ?_
    simp only [skipScalar, if_neg hnull, if_pos htrue, List.tail_cons] at hk ⊢
    exact prompt_readLetters hk
  by_cases hfalse : b == letterF
  · refine .taken ?_
    simp only [skipScalar, if_neg hnull, if_neg htrue, if_pos hfalse, List.tail_cons] at hk ⊢
    exact prompt_readLetters hk
  by_cases hminus : b == minusSign
  · refine .taken ?_
    simp only [skipScalar, if_neg hnull, if_neg htrue, if_neg hfalse, if_pos hminus,
      List.tail_cons] at hk ⊢
    exact prompt_skipNumber hk
  by_cases hdigit : isDigit b
  · -- a digit is read again with those behind it
    simp only [skipScalar, if_neg hnull, if_neg htrue, if_neg hfalse, if_neg hminus,
      if_pos hdigit] at hk ⊢
    exact .first (fun _ => rfl) (prompt_skipNumber hk)
  refine .taken ?_
  simp only [skipScalar, if_neg hnull, if_neg htrue, if_neg hfalse, if_neg hminus, if_neg hdigit,
    List.tail_cons] at hk ⊢
  by_cases hquote : b == quote
  · simp only [if_pos hquote] at hk ⊢
    exact prompt_skipText hk
  · simp only [if_neg hquote]
    exact .peeked _ rest

/-- A value is passed over, with what is open around it, and faults in it are found at once, if those of
the step behind are. -/
theorem prompt_skipThen {stage : Stage} {frames : List Frame}
    (h : ∀ rest, skipFrames .closed stage frames bytes = .ok rest → Prompt k rest) :
    Prompt (skipThen k stage frames) bytes := by
  induction hn : bytes.length using Nat.strongRecOn generalizing stage frames bytes with
  | ind n ih =>
    subst hn
    cases stage with
    | after =>
      cases frames with
      | nil =>
        rw [skipThen_after_nil]
        exact h bytes (by rw [skipFrames])
      | cons frame frames =>
        refine .congr (skipThen_after_cons frame frames) ?_
        refine (prompt_advance frame bytes).bind fun stage rest hnext => ?_
        refine ih _ (Frame.length_of_advance hnext) (fun rest' hrest => h rest' ?_) rfl
        rw [skipFrames_after, hnext]
        exact hrest
    | value =>
      have hnil : skipThen k .value frames [] = .error (Ending.closed.fault (.ended .value)) := by
        rw [skipThen, skipFrames_value]
        rfl
      refine .skips (fun bytes => ?_) (hnil ▸ leaves_atEnd _) fun b rest hbytes hb => ?_
      · rw [skipThen, skipThen, skipFrames_skipBlanks]
      · have hl := length_of_skipBlanks hbytes
        have hvalue := skipFrames_value .closed frames bytes
        rw [hbytes] at hvalue
        cases ho : Frame.opened? b with
        | some frame =>
          simp only [ho] at hvalue
          refine .taken ?_
          simp only [skipThen_value_opened (hb _) ho]
          refine (prompt_enter frame rest).bind fun stage rest' hnext => ?_
          have hl' := Nat.lt_of_le_of_lt (Frame.length_of_enter hnext) hl
          show Prompt (skipThen k stage (stage.frames frame frames)) rest'
          refine ih _ hl' (fun rest'' hrest => h rest'' ?_) rfl
          rw [hvalue, hnext]
          exact hrest
        | none =>
          simp only [ho] at hvalue
          refine .first (fun rest => skipThen_value_scalar (hb rest) ho frames)
            (prompt_skipScalar fun back hback => ?_)
          have hl' := Nat.lt_of_le_of_lt (length_of_skipScalar hback) hl
          refine ih _ hl' (fun rest'' hrest => h rest'' ?_) rfl
          rw [hvalue, hback]
          exact hrest

end BuildFleet.Json
