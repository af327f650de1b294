import BuildFleet.Json.Number
import BuildFleet.Proofs.Json.Grammar

/-!
# JSON — the numbers that are passed over

* `exists_magnitude`: what is taken of a number is one by the grammar.
* `readNumeral_of_magnitude`: a number by the grammar is taken as a whole, if nothing follows that
  could be more of it (`NumberEnds`).

Without the condition the second is false: of `12` a number may be `1`, but never one that is taken.
-/

namespace BuildFleet.Json

/-! ### What a run of digits stops at -/

/-- The first byte, if there is one, is not of this class. -/
def HeadNot (p : UInt8 → Bool) (bytes : Bytes) : Prop :=
  ∀ b ∈ bytes.head?, p b = false

theorem headNot_nil (p : UInt8 → Bool) : HeadNot p [] := by
  intro b hb
  cases hb

theorem headNot_cons {p : UInt8 → Bool} {b : UInt8} (h : p b = false) (bytes : Bytes) :
    HeadNot p (b :: bytes) := by
  intro c hc
  cases hc
  exact h

theorem dropWhile_of_headNot {p : UInt8 → Bool} {bytes : Bytes} (h : HeadNot p bytes) :
    bytes.dropWhile p = bytes := by
  cases bytes with
  | nil => rfl
  | cons b bytes => rw [List.dropWhile_cons_of_neg (by rw [h b rfl]; exact Bool.false_ne_true)]

theorem takeWhile_of_headNot {p : UInt8 → Bool} {bytes : Bytes} (h : HeadNot p bytes) :
    bytes.takeWhile p = [] := by
  cases bytes with
  | nil => rfl
  | cons b bytes => rw [List.takeWhile_cons_of_neg (by rw [h b rfl]; exact Bool.false_ne_true)]

/-- A run of digits is taken up to its end. -/
theorem takeWhile_digits {ds rest : Bytes} (hds : ∀ d ∈ ds, isDigit d = true)
    (hr : HeadNot isDigit rest) : (ds ++ rest).takeWhile isDigit = ds := by
  rw [List.takeWhile_append_of_pos hds, takeWhile_of_headNot hr, List.append_nil]

theorem dropWhile_digits {ds rest : Bytes} (hds : ∀ d ∈ ds, isDigit d = true)
    (hr : HeadNot isDigit rest) : (ds ++ rest).dropWhile isDigit = rest := by
  rw [List.dropWhile_append_of_pos hds, dropWhile_of_headNot hr]

/-- The digits at the front. -/
theorem exists_digits (bytes : Bytes) :
    (∀ d ∈ bytes.takeWhile isDigit, isDigit d = true) ∧
      bytes = bytes.takeWhile isDigit ++ bytes.dropWhile isDigit :=
  ⟨fun _ h => List.mem_takeWhile_imp h, (List.takeWhile_append_dropWhile ..).symm⟩

/-- A number does not go on here. -/
def NumberEnds (rest : Bytes) : Prop :=
  HeadNot isDigit rest ∧ HeadNot (· == point) rest ∧ HeadNot isExponentLetter rest

/-! ### What is taken is a number -/

theorem whole_of_readWhole {e : Ending} {atEnd : Cause} {bytes whole rest : Bytes}
    (h : readWhole e atEnd bytes = .ok (whole, rest)) : Whole whole ∧ bytes = whole ++ rest := by
  unfold readWhole at h
  split at h
  · cases h
  · rename_i b tail
    split at h
    · rename_i hz
      obtain rfl := eq_of_beq hz
      split at h
      · split at h
        · cases h
        · cases h
          exact ⟨.zero, rfl⟩
      · cases h
        exact ⟨.zero, rfl⟩
    · rename_i hz
      split at h
      · rename_i hd
        cases h
        obtain ⟨hds, htail⟩ := exists_digits tail
        refine ⟨.digits (fun h => hz (h ▸ beq_self_eq_true _)) ⟨List.cons_ne_nil _ _, ?_⟩, ?_⟩
        · intro x hx
          rcases List.mem_cons.mp hx with rfl | hx
          · exact hd
          · exact hds x hx
        · rw [List.cons_append, ← htail]
      · cases h

theorem fraction_of_readFraction {e : Ending} {atEnd : Cause} {bytes rest : Bytes}
    {digits : Option Bytes} (h : readFraction e atEnd bytes = .ok (digits, rest)) :
    ∃ fraction, Fraction fraction ∧ bytes = fraction ++ rest := by
  unfold readFraction at h
  split at h
  · rename_i b tail
    split at h
    · rename_i hp
      obtain rfl := eq_of_beq hp
      dsimp only at h
      split at h
      · cases h
      · rename_i hne
        cases h
        obtain ⟨hds, htail⟩ := exists_digits tail
        rw [Bool.not_eq_true, List.isEmpty_eq_false_iff] at hne
        refine ⟨_, .digits ⟨hne, hds⟩, ?_⟩
        rw [List.cons_append, ← htail]
    · cases h
      exact ⟨[], .none, rfl⟩
  · cases h
    exact ⟨[], .none, rfl⟩

theorem sign_of_readSign (bytes : Bytes) :
    ∃ sign ∈ [[], [plusSign], [minusSign]], bytes = sign ++ (readSign bytes).2 := by
  unfold readSign
  split
  · exact ⟨[], by simp, rfl⟩
  · split
    · rename_i hm
      obtain rfl := eq_of_beq hm
      exact ⟨[minusSign], by simp, rfl⟩
    · split
      · rename_i hp
        obtain rfl := eq_of_beq hp
        exact ⟨[plusSign], by simp, rfl⟩
      · exact ⟨[], by simp, rfl⟩

theorem exponent_of_readExponent {e : Ending} {atEnd : Cause} {bytes rest : Bytes}
    {read : Option (Bool × Bytes)} (h : readExponent e atEnd bytes = .ok (read, rest)) :
    ∃ exponent, Exponent exponent ∧ bytes = exponent ++ rest := by
  unfold readExponent at h
  split at h
  · rename_i b tail
    split at h
    · rename_i hb
      -- of the sign only the minus is kept, so its text is found from what it leaves
      obtain ⟨sign, hs, htail⟩ := sign_of_readSign tail
      split at h
      · cases h
      · rename_i negative d more hsign
        rw [hsign] at htail
        split at h
        · rename_i hd
          cases h
          obtain ⟨hds, hmore⟩ := exists_digits more
          refine ⟨_, .digits hb hs ⟨List.cons_ne_nil d (more.takeWhile isDigit), ?_⟩, ?_⟩
          · intro x hx
            rcases List.mem_cons.mp hx with rfl | hx
            · exact hd
            · exact hds x hx
          · show b :: tail = b :: (sign ++ d :: more.takeWhile isDigit) ++ more.dropWhile isDigit
            rw [List.cons_append, List.append_assoc, List.cons_append, ← hmore, htail]
        · cases h
    · cases h
      exact ⟨[], .none, rfl⟩
  · cases h
    exact ⟨[], .none, rfl⟩

theorem exists_magnitude {e : Ending} {atEnd : Cause} {bytes rest : Bytes} {n : Numeral}
    (h : readNumeral e atEnd bytes = .ok (n, rest)) :
    ∃ text, Magnitude text ∧ bytes = text ++ rest := by
  obtain ⟨⟨whole, rest₁⟩, h₁, hw⟩ := bind_eq_ok.mp h
  obtain ⟨⟨fraction, rest₂⟩, h₂, hf⟩ := bind_eq_ok.mp hw
  obtain ⟨⟨exponent, rest₃⟩, h₃, hx⟩ := bind_eq_ok.mp hf
  cases hx
  obtain ⟨hwhole, rfl⟩ := whole_of_readWhole h₁
  obtain ⟨ftext, hftext, rfl⟩ := fraction_of_readFraction h₂
  obtain ⟨xtext, hxtext, rfl⟩ := exponent_of_readExponent h₃
  exact ⟨_, .parts hwhole hftext hxtext, by simp⟩

/-! ### A number is taken -/

theorem isExponentLetter_eq_true {b : UInt8} (h : isExponentLetter b = true) :
    isDigit b = false ∧ (b == point) = false := by
  simp only [isExponentLetter, Bool.or_eq_true, beq_iff_eq] at h
  rcases h with rfl | rfl <;> exact ⟨rfl, rfl⟩

theorem readWhole_of_whole {e : Ending} {atEnd : Cause} {whole rest : Bytes} (h : Whole whole)
    (hr : HeadNot isDigit rest) : readWhole e atEnd (whole ++ rest) = .ok (whole, rest) := by
  cases h with
  | zero =>
    cases rest with
    | nil => rfl
    | cons b rest => simp [readWhole, hr b rfl]
  | @digits d ds hz hds =>
    have hmore : ∀ x ∈ ds, isDigit x = true := fun x hx => hds.2 x (List.mem_cons_of_mem d hx)
    simp [readWhole, hz, hds.2 d List.mem_cons_self, takeWhile_digits hmore hr,
      dropWhile_digits hmore hr]

theorem readFraction_of_fraction {e : Ending} {atEnd : Cause} {fraction rest : Bytes}
    (h : Fraction fraction) (hr : HeadNot isDigit rest) (hp : HeadNot (· == point) rest) :
    ∃ digits, readFraction e atEnd (fraction ++ rest) = .ok (digits, rest) := by
  cases h with
  | none =>
    refine ⟨none, ?_⟩
    cases rest with
    | nil => rfl
    | cons b rest => simp [readFraction, show (b == point) = false from hp b rfl]
  | @digits ds hds =>
    refine ⟨some ds, ?_⟩
    simp [readFraction, takeWhile_digits hds.2 hr, dropWhile_digits hds.2 hr, hds.1]

theorem readSign_of_sign {sign : Bytes} {d : UInt8} (hs : sign ∈ [[], [plusSign], [minusSign]])
    (hd : isDigit d = true) (rest : Bytes) :
    ∃ negative, readSign (sign ++ d :: rest) = (negative, d :: rest) := by
  have hm : d ≠ minusSign := by
    rintro rfl
    cases hd
  have hp : d ≠ plusSign := by
    rintro rfl
    cases hd
  simp only [List.mem_cons, List.not_mem_nil, or_false] at hs
  rcases hs with rfl | rfl | rfl
  · exact ⟨false, by simp [readSign, hm, hp]⟩
  · exact ⟨false, rfl⟩
  · exact ⟨true, rfl⟩

theorem readExponent_of_exponent {e : Ending} {atEnd : Cause} {exponent rest : Bytes}
    (h : Exponent exponent) (hr : HeadNot isDigit rest) (hx : HeadNot isExponentLetter rest) :
    ∃ read, readExponent e atEnd (exponent ++ rest) = .ok (read, rest) := by
  cases h with
  | none =>
    refine ⟨none, ?_⟩
    cases rest with
    | nil => rfl
    | cons b rest => simp [readExponent, hx b rfl]
  | @digits letter sign ds hl hs hds =>
    obtain ⟨d, ds, rfl⟩ := List.exists_cons_of_ne_nil hds.1
    obtain ⟨negative, hsign⟩ := readSign_of_sign hs (hds.2 d List.mem_cons_self) (ds ++ rest)
    have hmore : ∀ x ∈ ds, isDigit x = true := fun x hx => hds.2 x (List.mem_cons_of_mem d hx)
    refine ⟨some (negative, d :: ds), ?_⟩
    rw [List.append_assoc, List.cons_append, readExponent, if_pos hl, List.cons_append, hsign]
    simp [hds.2 d List.mem_cons_self, takeWhile_digits hmore hr, dropWhile_digits hmore hr]

/-- After the fraction, or in its place, stands no digit. -/
theorem Fraction.headNot_isDigit {fraction rest : Bytes} (h : Fraction fraction)
    (hr : HeadNot isDigit rest) : HeadNot isDigit (fraction ++ rest) := by
  cases h with
  | none => exact hr
  | digits => exact headNot_cons rfl _

/-- Where an exponent may begin stands neither a digit nor a point. -/
theorem Exponent.headNot {exponent rest : Bytes} (h : Exponent exponent) (hr : NumberEnds rest) :
    HeadNot isDigit (exponent ++ rest) ∧ HeadNot (· == point) (exponent ++ rest) := by
  cases h with
  | none => exact ⟨hr.1, hr.2.1⟩
  | digits hl =>
    obtain ⟨hd, hp⟩ := isExponentLetter_eq_true hl
    refine ⟨headNot_cons hd _, ?_⟩
    intro b hb
    cases hb
    exact hp

theorem readNumeral_of_magnitude {e : Ending} {atEnd : Cause} {text rest : Bytes}
    (h : Magnitude text) (hr : NumberEnds rest) :
    ∃ n, readNumeral e atEnd (text ++ rest) = .ok (n, rest) := by
  cases h with
  | @parts whole fraction exponent hw hf hx =>
    obtain ⟨hd, hp⟩ := hx.headNot hr
    obtain ⟨digits, hfraction⟩ := @readFraction_of_fraction e atEnd _ _ hf hd hp
    obtain ⟨read, hexponent⟩ := @readExponent_of_exponent e atEnd _ _ hx hr.1 hr.2.2
    -- each part is followed by the next one, which does not begin with a digit
    refine ⟨⟨whole, digits, read⟩, ?_⟩
    rw [List.append_assoc, List.append_assoc]
    refine bind_eq_ok.mpr ⟨_, readWhole_of_whole hw (hf.headNot_isDigit hd), ?_⟩
    refine bind_eq_ok.mpr ⟨_, hfraction, ?_⟩
    exact bind_eq_ok.mpr ⟨_, hexponent, rfl⟩

end BuildFleet.Json
