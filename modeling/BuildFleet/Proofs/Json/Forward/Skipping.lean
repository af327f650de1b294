import BuildFleet.Proofs.Json.Forward.Strings

/-!
# JSON — values that are passed over, from front to back

A value nobody asks for is passed over together with the frames that are open around it, and the step
behind it comes next (`skipThen`).  If that goes from front to back, so does all of it
(`forward_skipThen`).

Numbers are the exception.  Nothing tells the end of a number but what follows it, so the front of a
number is passed over as a number of its own, up to the end of the bytes, or found to be none
(`skipNumber_of_head`).  In the first case the step behind finds nothing left (`Delimits`).
-/

namespace BuildFleet.Json

variable {β : Type} {bytes : Bytes}

/-! ### Numbers -/

/-- What is made of the front of a number: it is wrong, or it is taken to the end, or, where it is not
at the end, the same is made of the front and more. -/
inductive InFront {ρ : Type} (more : Bytes) : Except Fault (ρ × Bytes) → Except Fault (ρ × Bytes) → Prop
  where
  | invalid (mark : Mark) (y) : InFront more (.error ⟨.invalidNumber, mark⟩) y
  | taken (v : ρ) (y) : InFront more (.ok (v, [])) y
  | same (v : ρ) (rest : Bytes) : InFront more (.ok (v, rest)) (.ok (v, rest ++ more))

theorem InFront.bind {ρ ρ' : Type} {more : Bytes} {x y : Except Fault (ρ × Bytes)}
    {f : ρ × Bytes → Except Fault (ρ' × Bytes)} (h : InFront more x y)
    (hnil : ∀ v, ∃ w, f (v, []) = .ok (w, []))
    (hf : ∀ v rest, InFront more (f (v, rest)) (f (v, rest ++ more))) :
    InFront more (x >>= f) (y >>= f) := by
  cases h with
  | invalid mark => exact .invalid mark _
  | taken v =>
    obtain ⟨w, hw⟩ := hnil v
    show InFront more (f (v, [])) _
    rw [hw]
    exact .taken w _
  | same v rest => exact hf v rest

theorem inFront_digits {ρ : Type} (v : Bytes → ρ) (digits more : Bytes) :
    InFront more (.ok (v (digits.takeWhile isDigit), digits.dropWhile isDigit))
      (.ok (v ((digits ++ more).takeWhile isDigit), (digits ++ more).dropWhile isDigit)) := by
  rw [List.dropWhile_append, List.takeWhile_append]
  cases h : digits.dropWhile isDigit with
  | nil => exact .taken _ _
  | cons b rest =>
    have hlen : (digits.takeWhile isDigit).length ≠ digits.length := by
      have := congrArg List.length (List.takeWhile_append_dropWhile (p := isDigit) (l := digits))
      rw [h, List.length_append, List.length_cons] at this
      omega
    rw [if_neg hlen]
    exact .same _ _

theorem inFront_readWhole (bytes more : Bytes) :
    InFront more (readWhole .closed .invalidNumber bytes)
      (readWhole .closed .invalidNumber (bytes ++ more)) := by
  cases bytes with
  | nil => exact .invalid _ _
  | cons b rest =>
    rw [List.cons_append, readWhole.eq_def, readWhole.eq_def]
    dsimp only
    by_cases hz : b == zeroDigit
    · rw [if_pos hz, if_pos hz]
      cases rest with
      | nil => exact .taken _ _
      | cons d rest =>
        dsimp only [List.cons_append]
        split
        · exact .invalid _ _
        · exact .same _ _
    · rw [if_neg hz, if_neg hz]
      by_cases hd : isDigit b
      · rw [if_pos hd, if_pos hd]
        exact inFront_digits (fun digits => b :: digits) rest more
      · rw [if_neg hd]
        exact .invalid _ _

theorem inFront_readFraction (bytes more : Bytes) :
    InFront more (readFraction .closed .invalidNumber bytes)
      (readFraction .closed .invalidNumber (bytes ++ more)) := by
  cases bytes with
  | nil => exact .taken _ _
  | cons b rest =>
    rw [List.cons_append, readFraction.eq_def, readFraction.eq_def]
    dsimp only
    by_cases hp : b == point
    · rw [if_pos hp, if_pos hp]
      cases rest with
      | nil => exact .invalid _ _
      | cons d rest =>
        by_cases hd : isDigit d
        · simp only [List.cons_append, List.takeWhile_cons_of_pos hd, List.dropWhile_cons_of_pos hd,
            List.isEmpty_cons, Bool.false_eq_true, if_false]
          exact inFront_digits (fun digits => some (d :: digits)) rest more
        · simp only [List.cons_append, List.takeWhile_cons_of_neg hd, List.isEmpty_nil, if_true]
          exact .invalid _ _
    · rw [if_neg hp, if_neg hp]
      exact .same _ _

theorem readSign_append (b : UInt8) (rest more : Bytes) :
    readSign (b :: rest ++ more) = ((readSign (b :: rest)).1, (readSign (b :: rest)).2 ++ more) := by
  rw [List.cons_append, readSign, readSign]
  split
  · rfl
  · split <;> rfl

theorem inFront_readExponent (bytes more : Bytes) :
    InFront more (readExponent .closed .invalidNumber bytes)
      (readExponent .closed .invalidNumber (bytes ++ more)) := by
  cases bytes with
  | nil => exact .taken _ _
  | cons b rest =>
    rw [List.cons_append, readExponent.eq_def, readExponent.eq_def]
    dsimp only
    by_cases hl : isExponentLetter b
    · rw [if_pos hl, if_pos hl]
      cases rest with
      | nil => exact .invalid _ _
      | cons s rest =>
        rw [readSign_append]
        rcases readSign (s :: rest) with ⟨negative, _ | ⟨d, digits⟩⟩
        · exact .invalid _ _
        · dsimp only [List.cons_append]
          by_cases hd : isDigit d
          · rw [if_pos hd, if_pos hd]
            exact inFront_digits (fun more => some (negative, d :: more)) digits more
          · rw [if_neg hd]
            exact .invalid _ _
    · rw [if_neg hl, if_neg hl]
      exact .same _ _

/-- What is kept of a number that is passed over is passed over too, or is no number. -/
theorem skipNumber_of_head {head tail rest : Bytes} (ht : tail ≠ [])
    (h : skipNumber .closed (head ++ tail ++ rest) = .ok rest) :
    skipNumber .closed head = .ok [] ∨
      ∃ mark, skipNumber .closed head = .error ⟨.invalidNumber, mark⟩ := by
  have hread : InFront (tail ++ rest) (readNumeral .closed .invalidNumber head)
      (readNumeral .closed .invalidNumber (head ++ (tail ++ rest))) := by
    refine (inFront_readWhole head _).bind (fun _ => ⟨_, rfl⟩) fun whole rest₁ => ?_
    refine (inFront_readFraction rest₁ _).bind (fun _ => ⟨_, rfl⟩) fun fraction rest₂ => ?_
    exact (inFront_readExponent rest₂ _).bind (fun _ => ⟨_, rfl⟩) fun exponent rest₃ => .same _ _
  rw [List.append_assoc] at h
  obtain ⟨⟨n, rest₁⟩, hn, hrest⟩ := bind_eq_ok.mp h
  cases hrest
  rw [hn] at hread
  rw [skipNumber]
  generalize readNumeral .closed .invalidNumber head = x at hread
  generalize hy : (Except.ok (n, rest) : Except Fault _) = y at hread
  cases hread with
  | invalid mark => exact .inr ⟨mark, rfl⟩
  | taken n => exact .inl rfl
  | same n rest₁ =>
    -- the number would end before the cut
    have hlen := congrArg List.length (Prod.mk.inj (Except.ok.inj hy)).2
    have hpos := List.length_pos_iff.mpr ht
    simp only [List.length_append] at hlen
    omega

/-! ### Keys and frames -/

theorem forward_readColon {k : Bytes → Except Fault (β × Bytes)}
    (hk : ∀ rest, readColon .closed bytes = .ok rest → Forward k rest) :
    Forward (fun bytes => readColon .closed bytes >>= k) bytes := by
  refine Forward.blanks (fun b rest => if b == colon then k rest
    else .error ⟨.expectedColon, .peeked (rest.length + 1)⟩) (fun bytes hb => ?_)
    (fun bytes b rest hb => ?_) fun b rest hb => ?_
  · rw [readColon, hb]
    exact (endsEarly_closed .object).bind k
  · simp only [readColon, hb]
    split <;> rfl
  · refine .ite (fun hc => hk rest ?_) fun _ => .error _ rest
    simp only [readColon, hb, if_pos hc]

theorem skipKey_bind {bytes rest : Bytes} {b : UInt8} (hb : skipBlanks bytes = b :: rest)
    (k : Bytes → Except Fault (β × Bytes)) :
    skipKey .closed bytes >>= k =
      if b == quote then skipText .closed rest >>= fun rest => readColon .closed rest >>= k
      else .error ⟨.keyMustBeString, .peeked (rest.length + 1)⟩ := by
  simp only [skipKey, hb]
  split
  · rw [bind_assoc]
  · rfl

/-- A key, from its first byte on. -/
theorem forward_key {k : Bytes → Except Fault (β × Bytes)} (hk : ∀ rest, Forward k rest) (b : UInt8)
    (rest : Bytes) :
    Forward (fun rest =>
      if b == quote then skipText .closed rest >>= fun rest => readColon .closed rest >>= k
      else .error ⟨.keyMustBeString, .peeked (rest.length + 1)⟩) rest :=
  .ite (fun _ => forward_skipText fun _ _ => forward_readColon fun rest _ => hk rest)
    fun _ => .error _ rest

theorem forward_skipKey {k : Bytes → Except Fault (β × Bytes)} (hk : ∀ rest, Forward k rest) :
    Forward (fun bytes => skipKey .closed bytes >>= k) bytes := by
  refine Forward.blanks _ (fun bytes hb => ?_) (fun bytes b rest hb => skipKey_bind hb k)
    fun b rest _ => forward_key hk b rest
  rw [skipKey, hb]
  exact (endsEarly_closed .object).bind k

theorem forward_toValue (frame : Frame) {k : Bytes → Except Fault (β × Bytes)}
    (hk : ∀ rest, Forward k rest) :
    Forward (fun bytes => frame.toValue .closed bytes >>= k) bytes := by
  cases frame with
  | list => exact hk bytes
  | object => exact forward_skipKey hk

theorem forward_advance (frame : Frame) (bytes : Bytes) : Forward (frame.advance .closed) bytes := by
  refine Forward.blanks (fun b rest => if b == comma then
      frame.toValue .closed rest >>= fun rest => .ok (.value, rest)
    else if b == frame.closing then .ok (.after, rest)
    else .error ⟨frame.missingComma, .peeked (rest.length + 1)⟩) (fun bytes hb => ?_)
    (fun bytes b rest hb => ?_) fun b rest hb => ?_
  · rw [Frame.advance, hb]
    exact endsEarly_closed _
  · rw [Frame.advance, hb]
  · exact .ite (fun _ => forward_toValue frame fun rest => .ok _ rest) fun _ =>
      .ite (fun _ => .ok _ rest) fun _ => .error _ rest

theorem endsEarly_enter (frame : Frame) {bytes : Bytes} (h : skipBlanks bytes = []) :
    EndsEarly (frame.enter .closed bytes) := by
  rw [Frame.enter, h]
  exact endsEarly_closed _

theorem forward_enter (frame : Frame) (bytes : Bytes) : Forward (frame.enter .closed) bytes := by
  cases hb : skipBlanks bytes with
  | nil => exact .of_endsEarly (endsEarly_enter frame hb)
  | cons b rest =>
    by_cases hc : b == frame.closing
    · refine Forward.gap hb (fun _ => endsEarly_enter frame) (fun bytes rest hb => ?_) (.ok .after rest)
      simp only [Frame.enter, hb, if_pos hc]
    · cases frame with
      | list =>
        -- the first byte of a value is only looked at
        refine Forward.peek_value (v := Stage.value) hb hc (fun _ => endsEarly_enter .list)
          fun bytes b rest hb hc => ?_
        have hc' : ¬ (b == Frame.list.closing) = true := hc
        simp only [Frame.enter, hb, if_neg hc']
        rfl
      | object =>
        refine Forward.gap hb (fun _ => endsEarly_enter .object) (fun bytes rest hb => ?_)
          (forward_key (fun rest => .ok Stage.value rest) b rest)
        rw [← skipKey_bind hb, ← skipKey_skipBlanks]
        simp only [Frame.enter, hb, if_neg hc]
        rfl

/-! ### Numbers that are passed over -/

theorem opened?_of_beginsNumber {b : UInt8} (h : BeginsNumber b) :
    isBlank b = false ∧ Frame.opened? b = none := by
  rcases h with hd | rfl
  · exact ⟨(isBlank_of_isDigit hd).1, opened?_of_isDigit hd⟩
  · exact ⟨rfl, rfl⟩

theorem number_of_skipScalar {b : UInt8} {rest back : Bytes} (hb : BeginsNumber b)
    (h : skipScalar .closed b rest = .ok back) : ∃ text, Number (b :: text) ∧ rest = text ++ back := by
  rcases hb with hd | rfl
  · rw [skipScalar_of_isDigit hd] at h
    obtain ⟨text, ht, heq⟩ := skipNumber_eq_ok h
    obtain ⟨d, more, rfl⟩ := List.exists_cons_of_ne_nil ht.ne_nil
    obtain ⟨rfl, rfl⟩ := List.cons.inj heq
    exact ⟨more, .positive ht, rfl⟩
  · obtain ⟨text, ht, rfl⟩ := skipNumber_eq_ok h
    exact ⟨text, .negative ht, rfl⟩

theorem skipScalar_of_head {b : UInt8} {head tail : Bytes} (h : Number (b :: head ++ tail))
    (ht : tail ≠ []) : skipScalar .closed b head = .ok [] ∨
      ∃ mark, skipScalar .closed b head = .error ⟨.invalidNumber, mark⟩ := by
  have hhead : ∀ {head : Bytes}, Magnitude (head ++ tail) → skipNumber .closed head = .ok [] ∨
      ∃ mark, skipNumber .closed head = .error ⟨.invalidNumber, mark⟩ := by
    intro head hm
    have hends : Ends .closed [] := rfl
    exact skipNumber_of_head ht (skipNumber_of_magnitude hm hends)
  generalize hw : b :: head ++ tail = whole at h
  cases h with
  | positive hm =>
    obtain ⟨d, more, rfl, hd⟩ := hm.exists_cons
    obtain ⟨rfl, rfl⟩ := List.cons.inj hw
    rw [skipScalar_of_isDigit hd]
    exact hhead hm
  | negative hm =>
    obtain ⟨rfl, rfl⟩ := List.cons.inj hw
    exact hhead hm

/-! ### Values that are passed over -/

/-- Passes over what is open, and goes on behind it. -/
def skipThen (k : Bytes → Except Fault (β × Bytes)) (stage : Stage) (frames : List Frame)
    (bytes : Bytes) : Except Fault (β × Bytes) :=
  skipFrames .closed stage frames bytes >>= k

/-- What may come behind a value that is passed over: it needs more bytes, and takes none that could be
more of a number. -/
structure Delimits (k : Bytes → Except Fault (β × Bytes)) : Prop where
  nil : EndsEarly (k [])
  ends : ∀ {bytes p}, k bytes = .ok p → Ends .closed bytes

variable {k : Bytes → Except Fault (β × Bytes)}

theorem skipThen_after_nil (k : Bytes → Except Fault (β × Bytes)) : skipThen k .after [] = k := by
  funext bytes
  rw [skipThen, skipFrames]
  rfl

theorem skipThen_after_cons (frame : Frame) (frames : List Frame) (bytes : Bytes) :
    skipThen k .after (frame :: frames) bytes =
      frame.advance .closed bytes >>= fun (stage, rest) =>
        skipThen k stage (stage.frames frame frames) rest := by
  rw [skipThen, skipFrames_after, bind_assoc]
  rfl

theorem skipThen_value_scalar {b : UInt8} {rest : Bytes} (hb : skipBlanks bytes = b :: rest)
    (ho : Frame.opened? b = none) (frames : List Frame) :
    skipThen k .value frames bytes = skipScalar .closed b rest >>= skipThen k .after frames := by
  rw [skipThen, skipFrames_value, hb]
  simp only [ho, bind_assoc]
  rfl

theorem skipThen_value_opened {b : UInt8} {rest : Bytes} {frame : Frame}
    (hb : skipBlanks bytes = b :: rest) (ho : Frame.opened? b = some frame) (frames : List Frame) :
    skipThen k .value frames bytes =
      frame.enter .closed rest >>= fun (stage, rest) =>
        skipThen k stage (stage.frames frame frames) rest := by
  rw [skipThen, skipFrames_value, hb]
  simp only [ho, bind_assoc]
  rfl

theorem endsEarly_skipThen_value {frames : List Frame} (h : skipBlanks bytes = []) :
    EndsEarly (skipThen k .value frames bytes) := by
  rw [skipThen, skipFrames_value, h]
  exact (endsEarly_closed .value).bind k

theorem skipThen_of_value {gap text rest : Bytes} (hg : Blanks gap) (ht : Value text)
    (hr : Ends .closed rest) (frames : List Frame) :
    skipThen k .value frames (gap ++ text ++ rest) = skipThen k .after frames rest := by
  have hp : PassesValue .closed text := passes_of_phrase ht
  rw [skipThen, List.append_assoc, skipFrames_gap hg, hp frames rest hr, skipThen]

theorem ends_of_advance {frame : Frame} {bytes rest : Bytes} {stage : Stage}
    (h : frame.advance .closed bytes = .ok (stage, rest)) : Ends .closed bytes := by
  obtain ⟨gap, hg, ⟨-, lead, -, rfl⟩ | ⟨-, rfl⟩⟩ := Frame.advance_eq_ok h
  · rw [List.append_assoc]
    exact ends_of_blanks hg (.inl rfl) _
  · exact ends_closing hg frame rest

theorem Delimits.after (h : Delimits k) (frames : List Frame) :
    Delimits (skipThen k .after frames) := by
  cases frames with
  | nil => rwa [skipThen_after_nil]
  | cons frame frames =>
    refine ⟨?_, fun {bytes p} hp => ?_⟩
    · rw [skipThen_after_cons]
      exact (endsEarly_closed frame.construct).bind _
    · rw [skipThen_after_cons] at hp
      obtain ⟨next, hnext, -⟩ := bind_eq_ok.mp hp
      exact ends_of_advance hnext

/-- A cut inside a number that is passed over. -/
theorem atCut_number (hk : Delimits k) {frames : List Frame} {gap head tail back rest : Bytes} {v : β}
    (hg : Blanks gap) (hn : Number (head ++ tail)) (htail : tail ≠ [])
    (hv : skipThen k .after frames back = .ok (v, rest)) :
    AtCut (skipThen k .value frames) (gap ++ head) (tail ++ back) v rest
      (skipThen k .value frames (gap ++ head)) := by
  cases head with
  | nil =>
    rw [List.append_nil]
    exact (endsEarly_skipThen_value (skipBlanks_eq_nil_iff.mpr hg)).atCut
  | cons b head =>
    have hb : BeginsNumber b := by
      obtain ⟨c, more, heq, hc⟩ := hn.exists_cons
      obtain ⟨rfl, -⟩ := List.cons.inj heq
      exact hc
    obtain ⟨hblank, ho⟩ := opened?_of_beginsNumber hb
    rw [skipThen_value_scalar (skipBlanks_gap hg hblank head) ho]
    rcases skipScalar_of_head hn htail with hread | ⟨mark, hread⟩
    · -- what is kept is a number as well, but nothing is left behind it
      rw [hread]
      exact (hk.after frames).nil.atCut
    · rw [hread]
      refine .short (.number (.inside hn (List.cons_ne_nil b head) htail rfl rfl fun text ht => ?_))
      rw [skipThen_of_value hg ht ((hk.after frames).ends hv), hv]

/-- A cut behind a number that is passed over. -/
theorem atCut_behind_number (hk : Delimits k) {frames : List Frame} {gap number : Bytes}
    (hg : Blanks gap) (hn : Number number) {behind lost rest : Bytes} {v : β}
    (hv : skipThen k .after frames (behind ++ lost) = .ok (v, rest))
    (h : Forward (skipThen k .after frames) (behind ++ lost)) :
    AtCut (skipThen k .value frames) (gap ++ number ++ behind) lost v rest
      (skipThen k .value frames (gap ++ number ++ behind)) := by
  have hnumber : ∀ bytes, Ends .closed bytes →
      skipThen k .value frames (gap ++ number ++ bytes) = skipThen k .after frames bytes :=
    fun bytes he => skipThen_of_value hg hn.value he frames
  cases behind with
  | nil =>
    rw [hnumber [] rfl]
    exact (hk.after frames).nil.atCut
  | cons b behind =>
    have hends : Ends .closed (b :: (behind ++ lost)) := (hk.after frames).ends hv
    rw [hnumber (b :: behind) hends]
    refine (h.cut rfl hv).append fun bytes hbytes => ?_
    rw [hnumber bytes ((hk.after frames).ends hbytes), hbytes]

/-- A number is passed over if the step behind it goes from front to back. -/
theorem forward_number (hk : Delimits k) {frames : List Frame} {gap number back : Bytes}
    (hg : Blanks gap) (hn : Number number)
    (hback : skipThen k .value frames (gap ++ number ++ back) = skipThen k .after frames back)
    (h : Forward (skipThen k .after frames) back) :
    Forward (skipThen k .value frames) (gap ++ number ++ back) where
  stable := by
    intro v rest hv
    rw [hback] at hv
    obtain ⟨used, rfl, hused⟩ := h.stable hv
    refine ⟨gap ++ number ++ used, by simp, fun rest' hr => ?_⟩
    have hread := hused rest' hr
    rw [List.append_assoc, skipThen_of_value hg hn.value ((hk.after frames).ends hread), hread]
  cut := by
    intro kept lost v rest hbytes hv
    rw [hback] at hv
    -- the cut is in the blanks, in the number or behind it
    rw [List.append_assoc] at hbytes
    rcases List.append_eq_append_iff.mp hbytes with ⟨kept', rfl, hrest⟩ | ⟨lost', rfl, -⟩
    · rcases List.append_eq_append_iff.mp hrest with ⟨behind, rfl, rfl⟩ | ⟨tail, rfl, rfl⟩
      · rw [← List.append_assoc]
        exact atCut_behind_number hk hg hn hv h
      · by_cases htail : tail = []
        · subst htail
          have hnil : skipThen k .after frames ([] ++ back) = .ok (v, rest) := hv
          have hbehind := atCut_behind_number hk hg hn hnil h
          rwa [List.append_nil, List.append_nil] at hbehind
        · exact atCut_number hk hg hn htail hv
    · exact (endsEarly_skipThen_value (skipBlanks_eq_nil_iff.mpr (blanks_append_iff.mp hg).1)).atCut

theorem forward_skipScalar {b : UInt8} {rest : Bytes} {k : Bytes → Except Fault (β × Bytes)}
    (hb : ¬ BeginsNumber b)
    (hk : ∀ rest', skipScalar .closed b rest = .ok rest' → Forward k rest') :
    Forward (fun rest => skipScalar .closed b rest >>= k) rest := by
  simp only [skipScalar] at hk ⊢
  split at hk
  · rename_i hn
    simp only [if_pos hn]
    exact forward_readLetters hk
  split at hk
  · rename_i hn ht
    simp only [if_neg hn, if_pos ht]
    exact forward_readLetters hk
  split at hk
  · rename_i hn ht hf
    simp only [if_neg hn, if_neg ht, if_pos hf]
    exact forward_readLetters hk
  split at hk
  · rename_i hm
    exact absurd (.inr (eq_of_beq hm)) hb
  split at hk
  · rename_i hd
    exact absurd (.inl hd) hb
  split at hk
  · rename_i hn ht hf hm hd hq
    simp only [if_neg hn, if_neg ht, if_neg hf, if_neg hm, if_neg hd, if_pos hq]
    exact forward_skipText hk
  · rename_i hn ht hf hm hd hq
    simp only [if_neg hn, if_neg ht, if_neg hf, if_neg hm, if_neg hd, if_neg hq]
    exact .error _ rest

/-- A value is passed over from front to back, with what is open around it, if the step behind goes on
so. -/
theorem forward_skipThen (hk : Delimits k) {stage : Stage} {frames : List Frame}
    (h : ∀ rest, skipFrames .closed stage frames bytes = .ok rest → Forward k rest) :
    Forward (skipThen k stage frames) bytes := by
  -- on the number of bytes, for with each of them there may be more frames
  induction hn : bytes.length using Nat.strongRecOn generalizing stage frames bytes with
  | ind n ih =>
    subst hn
    cases stage with
    | after =>
      cases frames with
      | nil =>
        rw [skipThen_after_nil]
        exact h bytes (by rw [skipFrames])
      | cons frame frames =>
        refine Forward.congr (skipThen_after_cons frame frames) ?_
        refine (forward_advance frame bytes).bind fun stage rest hnext => ?_
        refine ih _ (Frame.length_of_advance hnext) (fun rest' hrest => h rest' ?_) rfl
        rw [skipFrames_after, hnext]
        exact hrest
    | value =>
      cases hb : skipBlanks bytes with
      | nil => exact .of_endsEarly (endsEarly_skipThen_value hb)
      | cons b rest =>
        have hl := length_of_skipBlanks hb
        cases ho : Frame.opened? b with
        | some frame =>
          refine Forward.gap hb (fun _ => endsEarly_skipThen_value)
            (fun bytes rest hb => skipThen_value_opened hb ho frames) ?_
          refine (forward_enter frame rest).bind fun stage rest' hnext => ?_
          have hl' := Nat.lt_of_le_of_lt (Frame.length_of_enter hnext) hl
          refine ih _ hl' (fun rest'' hrest => h rest'' ?_) rfl
          rw [skipFrames_value, hb]
          simp only [ho, hnext]
          exact hrest
        | none =>
          have hafter : ∀ back, skipScalar .closed b rest = .ok back →
              Forward (skipThen k .after frames) back := by
            intro back hback
            have hl' := Nat.lt_of_le_of_lt (length_of_skipScalar hback) hl
            refine ih _ hl' (fun rest'' hrest => h rest'' ?_) rfl
            rw [skipFrames_value, hb]
            simp only [ho, hback]
            exact hrest
          -- only behind a number does it matter what the next step takes
          by_cases hnumber : BeginsNumber b
          · have hread := skipThen_value_scalar (k := k) hb ho frames
            cases hs : skipScalar .closed b rest with
            | error fault =>
              rw [hs] at hread
              exact .of_error hread
            | ok back =>
              obtain ⟨-, gap, hg, rfl⟩ := skipBlanks_eq_cons_iff.mp hb
              obtain ⟨text, ht, rfl⟩ := number_of_skipScalar hnumber hs
              have happend : gap ++ b :: (text ++ back) = gap ++ b :: text ++ back := by simp
              rw [hs, happend] at hread
              rw [happend]
              exact forward_number hk hg ht hread (hafter back hs)
          · exact Forward.gap hb (fun _ => endsEarly_skipThen_value)
              (fun bytes rest hb => skipThen_value_scalar hb ho frames)
              (forward_skipScalar hnumber hafter)

end BuildFleet.Json
