import BuildFleet.Proofs.Json.Forward.Basic

/-!
# JSON — words and strings from front to back

The steps that read a word or a string go from front to back.  If the bytes are cut off in one, its end
is missing: the other letters, or the closing quote.  The four digits of a code unit are judged together,
so a cut between them is no wrong digit.

Some steps give nothing but the rest.  About them it is said that they may stand in front of any other
step (`forward_readLetters`, `forward_skipText`).
-/

namespace BuildFleet.Json

variable {β : Type} {bytes : Bytes}

/-! ### Words -/

theorem forward_readLetters {letters : Bytes} {k : Bytes → Except Fault (β × Bytes)}
    (hk : ∀ rest, readLetters .closed letters bytes = .ok rest → Forward k rest) :
    Forward (fun bytes => readLetters .closed letters bytes >>= k) bytes := by
  induction letters generalizing bytes with
  | nil => exact hk bytes rfl
  | cons letter letters ih =>
    refine Forward.cons ((endsEarly_closed .value).bind k) ?_
    rintro b rest rfl
    simp only [readLetters] at hk ⊢
    by_cases hb : b == letter
    · simp only [if_pos hb] at hk ⊢
      exact ih hk
    · simp only [if_neg hb]
      exact .error _ rest

/-! ### Strings -/

theorem endsEarly_readCodeUnit (h : bytes.length < 4) : EndsEarly (readCodeUnit .closed bytes) := by
  unfold readCodeUnit
  split
  · simp only [List.length_cons] at h
    omega
  · exact endsEarly_closed .string

theorem forward_readCodeUnit (bytes : Bytes) : Forward (readCodeUnit .closed) bytes := by
  -- with fewer than four bytes left, none of them is looked at
  by_cases h : bytes.length < 4
  · exact .of_endsEarly (endsEarly_readCodeUnit h)
  · obtain ⟨digits, rest, rfl, hd⟩ : ∃ digits rest, bytes = digits ++ rest ∧ digits.length = 4 :=
      ⟨bytes.take 4, bytes.drop 4, (List.take_append_drop 4 bytes).symm, by simp; omega⟩
    match digits, hd with
    | [a, b, c, d], _ =>
      cases hu : codeUnit? a b c d with
      | none =>
        have hread : readCodeUnit .closed ([a, b, c, d] ++ rest) =
            .error ⟨.invalidEscape, .consumed rest.length⟩ := by
          simp [readCodeUnit, hu]
        exact .of_error hread
      | some unit =>
        refine Forward.of_used (fun rest => ?_) (fun kept lost hd hl => ?_) (.ok unit rest)
        · simp [readCodeUnit, hu]
        · have hlen := congrArg List.length hd
          have hpos := List.length_pos_iff.mpr hl
          rw [List.length_append] at hlen
          refine endsEarly_readCodeUnit ?_
          simp only [List.length_cons, List.length_nil] at hlen
          omega

theorem forward_continueEscape {expected : UInt8} {k : Bytes → Except Fault (β × Bytes)}
    (hk : ∀ rest, Forward k rest) :
    Forward (fun bytes => continueEscape .closed expected bytes >>= k) bytes := by
  refine Forward.cons ((endsEarly_closed .string).bind k) ?_
  rintro b rest rfl
  simp only [continueEscape]
  by_cases hb : b == expected
  · simp only [if_pos hb]
    exact hk rest
  · simp only [if_neg hb]
    exact .error _ rest

theorem forward_readUnitEscape (bytes : Bytes) : Forward (readUnitEscape .closed) bytes := by
  refine (forward_readCodeUnit bytes).bind fun unit rest _ => ?_
  refine .ite (fun _ => .error _ _) fun _ => .ite (fun _ => ?_) fun _ => .ok _ _
  refine forward_continueEscape fun rest₁ => forward_continueEscape fun rest₂ => ?_
  refine (forward_readCodeUnit rest₂).bind fun trailing rest₃ _ => ?_
  exact .ite (fun _ => .ok _ _) fun _ => .error _ _

theorem forward_readEscape (bytes : Bytes) : Forward (readEscape .closed) bytes := by
  refine Forward.cons (endsEarly_closed .string) fun b rest _ => ?_
  simp only [readEscape]
  cases shortEscape? b with
  | some byte => exact .ok _ _
  | none => exact .ite (fun _ => forward_readUnitEscape rest) fun _ => .error _ _

theorem forward_skipEscape {k : Bytes → Except Fault (β × Bytes)}
    (hk : ∀ rest, skipEscape .closed bytes = .ok rest → Forward k rest) :
    Forward (fun bytes => skipEscape .closed bytes >>= k) bytes := by
  refine Forward.cons ((endsEarly_closed .string).bind k) ?_
  rintro b rest rfl
  simp only [skipEscape] at hk ⊢
  split at hk
  · rename_i hs
    simp only [if_pos hs]
    exact hk rest rfl
  split at hk
  · rename_i hs hu
    simp only [if_neg hs, if_pos hu, bind_assoc]
    refine (forward_readCodeUnit rest).bind fun unit rest' h => ?_
    exact hk rest' (bind_eq_ok.mpr ⟨_, h, rfl⟩)
  · rename_i hs hu
    simp only [if_neg hs, if_neg hu]
    exact .error _ rest

theorem forward_readTextBytes (done bytes : Bytes) : Forward (readTextBytes .closed done) bytes := by
  induction hn : bytes.length using Nat.strongRecOn generalizing done bytes with
  | ind n ih =>
    subst hn
    have hnil : EndsEarly (readTextBytes .closed done []) := by
      rw [readTextBytes_nil]
      exact endsEarly_closed .string
    refine Forward.cons hnil ?_
    rintro b rest rfl
    simp only [readTextBytes_cons]
    refine .ite (fun _ => .ok _ _) fun _ => .ite (fun _ => ?_) fun _ =>
      .ite (fun _ => .error _ _) fun _ => ?_
    · refine (forward_readEscape rest).bind fun decoded rest' h => ?_
      exact ih _ (Nat.lt_succ_of_lt (length_of_readEscape h)) (decoded.reverse ++ done) rest' rfl
    · exact ih _ (Nat.lt_succ_self _) _ _ rfl

theorem forward_readText (bytes : Bytes) : Forward (readText .closed) bytes := by
  refine (forward_readTextBytes [] bytes).bind fun decoded rest _ => ?_
  dsimp only
  cases Text.Utf8.decode? decoded with
  | some s => exact .ok s rest
  | none => exact .error _ rest

theorem forward_skipText {k : Bytes → Except Fault (β × Bytes)}
    (hk : ∀ rest, skipText .closed bytes = .ok rest → Forward k rest) :
    Forward (fun bytes => skipText .closed bytes >>= k) bytes := by
  induction hn : bytes.length using Nat.strongRecOn generalizing bytes with
  | ind n ih =>
    subst hn
    have hnil : EndsEarly (skipText .closed [] >>= k) := by
      rw [skipText_nil]
      exact (endsEarly_closed .string).bind k
    refine Forward.cons hnil ?_
    rintro b rest rfl
    simp only [skipText_cons] at hk ⊢
    split at hk
    · rename_i hq
      simp only [if_pos hq]
      exact hk rest rfl
    split at hk
    · rename_i hq hb
      simp only [if_neg hq, if_pos hb, bind_assoc]
      refine forward_skipEscape fun rest' h => ?_
      refine ih _ (Nat.lt_succ_of_lt (length_of_skipEscape h)) (fun rest'' h' => ?_) rfl
      exact hk rest'' (bind_eq_ok.mpr ⟨_, h, h'⟩)
    split at hk
    · rename_i hq hb hc
      simp only [if_neg hq, if_neg hb, if_pos hc]
      exact .error _ rest
    · rename_i hq hb hc
      simp only [if_neg hq, if_neg hb, if_neg hc]
      exact ih _ (Nat.lt_succ_self _) hk rfl

end BuildFleet.Json
