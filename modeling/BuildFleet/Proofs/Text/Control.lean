import Mathlib.Data.List.Basic
import BuildFleet.Decimal.Shortest
import BuildFleet.Text.Quoted

/-!
# Text — without control characters

A text without control characters stays on its line, and does nothing to the terminal that shows it
(`ControlFree`).  The texts that messages are put together from are of this kind: the digits of numbers,
and quotations, which spell a control character by its code point.

* `controlFree_quoted`: a quotation, whatever it quotes.
* `controlFree_toString`, `controlFree_int`, `controlFree_float`: numbers.
* `controlFree_append`, `ControlFree.intercalate`: what is put together from such texts.
-/

namespace BuildFleet.Text

/-- The characters that are commands rather than signs: those below the space, and from U+007F up to
U+009F. -/
def IsControl (c : Char) : Prop :=
  c.toNat < 0x20 ∨ 0x7f ≤ c.toNat ∧ c.toNat ≤ 0x9f

instance (c : Char) : Decidable (IsControl c) :=
  inferInstanceAs (Decidable (_ ∨ _ ∧ _))

-- Not by going through all characters that there are.
instance (cs : List Char) : Decidable (∀ c ∈ cs, ¬ IsControl c) :=
  List.decidableBAll (fun c => ¬ IsControl c) cs

/-- No character of the text is a control character. -/
def ControlFree (s : String) : Prop :=
  ∀ c ∈ s.toList, ¬ IsControl c

instance (s : String) : Decidable (ControlFree s) :=
  inferInstanceAs (Decidable (∀ c ∈ s.toList, ¬ IsControl c))

/-- A line feed is a control character. -/
theorem ControlFree.not_mem_newline {s : String} (h : ControlFree s) : '\n' ∉ s.toList :=
  fun hc => h _ hc (.inl (by decide))

/-! ### Texts put together -/

theorem controlFree_append {s t : String} :
    ControlFree (s ++ t) ↔ ControlFree s ∧ ControlFree t := by
  rw [ControlFree, String.toList_append, List.forall_mem_append]
  rfl

/-- A text that is written out is made of such a list: its characters need not be decoded to look at
them. -/
theorem controlFree_ofList {cs : List Char} (h : ∀ c ∈ cs, ¬ IsControl c) :
    ControlFree (String.ofList cs) := by
  intro c hc
  rw [String.toList_ofList] at hc
  exact h c hc

theorem ControlFree.intercalate {sep : String} {parts : List String} (hsep : ControlFree sep)
    (h : ∀ s ∈ parts, ControlFree s) : ControlFree (sep.intercalate parts) := by
  induction parts with
  | nil =>
    rw [String.intercalate_nil]
    decide
  | cons s rest ih =>
    rw [List.forall_mem_cons] at h
    cases rest with
    | nil =>
      rw [String.intercalate_singleton]
      exact h.1
    | cons t rest =>
      rw [String.intercalate_cons_cons, controlFree_append, controlFree_append]
      exact ⟨⟨h.1, hsep⟩, ih h.2⟩

/-! ### Numbers -/

/-- The sign of a digit in any base is a sign. -/
theorem not_isControl_digitChar (n : Nat) : ¬ IsControl n.digitChar := by
  by_cases hn : n < 16
  · have hsmall : ∀ n < 16, ¬ IsControl (Nat.digitChar n) := by decide
    exact hsmall n hn
  · rw [Nat.digitChar_eq_star.mpr (Nat.le_of_not_lt hn)]
    decide

theorem not_isControl_of_mem_toDigits {base n : Nat} (hbase : 1 < base) {c : Char}
    (hc : c ∈ Nat.toDigits base n) : ¬ IsControl c := by
  induction n using Nat.strongRecOn with
  | ind n ih =>
    rw [Nat.toDigits_eq_if hbase] at hc
    split at hc
    case isTrue =>
      rw [List.mem_singleton.mp hc]
      exact not_isControl_digitChar n
    case isFalse hn =>
      rw [List.mem_append, List.mem_singleton] at hc
      rcases hc with hc | rfl
      · exact ih _ (Nat.div_lt_self (by omega) hbase) hc
      · exact not_isControl_digitChar _

theorem controlFree_toString (n : Nat) : ControlFree (toString n) := by
  rw [Nat.toString_eq_ofList_toDigits]
  exact controlFree_ofList fun c hc => not_isControl_of_mem_toDigits (by decide) hc

theorem controlFree_int (n : Int) : ControlFree (toString n) := by
  cases n with
  | ofNat n => exact controlFree_toString n
  | negSucc n => exact controlFree_append.mpr ⟨by decide, controlFree_toString (n + 1)⟩

/-! ### Decimal texts -/

open Decimal in
theorem not_isControl_of_mem_exponentText {e : Int} {c : Char} (hc : c ∈ exponentText e) :
    ¬ IsControl c := by
  rcases List.mem_cons.mp hc with rfl | hc
  · split <;> decide
  · exact not_isControl_of_mem_toDigits (by decide) hc

open Decimal in
/-- Whichever way a number is written, it is written in its digits and few other signs. -/
theorem not_isControl_of_mem_placePoint {digits : List Char} {point : Int}
    (h : ∀ c ∈ digits, ¬ IsControl c) {c : Char} (hc : c ∈ placePoint digits point) :
    ¬ IsControl c := by
  have hzero : ¬ IsControl '0' := by decide
  have hpoint : ¬ IsControl '.' := by decide
  have hletter : ¬ IsControl 'e' := by decide
  unfold placePoint at hc
  split at hc
  · simp only [List.mem_append, List.mem_cons, List.mem_replicate] at hc
    rcases hc with (hc | ⟨-, rfl⟩) | rfl | hc
    · exact h c (List.mem_of_mem_take hc)
    · exact hzero
    · exact hpoint
    · split at hc
      · rw [List.mem_singleton.mp hc]
        exact hzero
      · exact h c (List.mem_of_mem_drop hc)
  split at hc
  · simp only [List.cons_append, List.mem_append, List.mem_cons, List.mem_replicate] at hc
    rcases hc with rfl | rfl | ⟨-, rfl⟩ | hc
    · exact hzero
    · exact hpoint
    · exact hzero
    · exact h c hc
  · split at hc
    · rw [List.mem_singleton.mp hc]
      exact hzero
    · simp only [List.mem_cons] at hc
      rcases hc with rfl | rfl | hc
      · exact h c List.mem_cons_self
      · exact hletter
      · exact not_isControl_of_mem_exponentText hc
    · simp only [List.cons_append, List.mem_append, List.mem_cons] at hc
      rcases hc with rfl | rfl | hc | rfl | hc
      · exact h c List.mem_cons_self
      · exact hpoint
      · exact h c (List.mem_cons_of_mem _ hc)
      · exact hletter
      · exact not_isControl_of_mem_exponentText hc

theorem controlFree_float (negative : Bool) (x : Decimal.Binary64) :
    ControlFree (x.text negative) := by
  have hsign : ∀ c ∈ (if negative then ['-'] else []), ¬ IsControl c := by
    cases negative <;> decide
  have hdigits : ∀ n, ∀ c ∈ Decimal.trimmed n, ¬ IsControl c := by
    intro n c hc
    have hc' := (List.dropWhile_sublist _).mem (List.mem_reverse.mp hc)
    exact not_isControl_of_mem_toDigits (by decide) (List.mem_reverse.mp hc')
  unfold Decimal.Binary64.text
  dsimp only
  split
  · refine controlFree_ofList fun c hc => ?_
    have hzero : ∀ c ∈ ['0', '.', '0'], ¬ IsControl c := by decide
    exact (List.mem_append.mp hc).elim (hsign c) (hzero c)
  · refine controlFree_ofList fun c hc => ?_
    exact (List.mem_append.mp hc).elim (hsign c) (not_isControl_of_mem_placePoint (hdigits _))

/-! ### Quotations -/

/-- Control characters are among those that a quotation does not show as they are. -/
theorem hidden_of_isControl {c : Char} (h : IsControl c) : Quoted.hidden c = true := by
  have hrange : (0x7f, 0xa0) ∈ unprintable := .tail _ (.head _)
  rw [Quoted.hidden, Bool.or_eq_true, Bool.and_eq_true, Bool.or_eq_true, decide_eq_true_eq,
    decide_eq_true_eq]
  rcases h with h | ⟨hlow, hhigh⟩
  · exact .inl h
  · exact .inr ⟨hlow, .inl (CharRanges.contains_iff.mpr ⟨_, hrange, hlow, by omega⟩)⟩

theorem not_isControl_of_mem_codePoint {c d : Char} (hd : d ∈ Quoted.codePoint c) : ¬ IsControl d := by
  have hsigns : ∀ d ∈ ['\\', 'u', '{', '}'], ¬ IsControl d := by decide
  simp only [Quoted.codePoint, List.cons_append, List.mem_cons, List.mem_append,
    List.not_mem_nil, or_false] at hd
  rcases hd with rfl | rfl | rfl | hd | rfl
  · exact hsigns _ (by decide)
  · exact hsigns _ (by decide)
  · exact hsigns _ (by decide)
  · exact not_isControl_of_mem_toDigits (by decide) hd
  · exact hsigns _ (by decide)

theorem not_isControl_of_mem_encodeChar {c d : Char} (hd : d ∈ Quoted.encodeChar c) : ¬ IsControl d := by
  unfold Quoted.encodeChar at hd
  split at hd
  case h_7 =>
    split at hd
    · exact not_isControl_of_mem_codePoint hd
    case isFalse hshown =>
      rw [List.mem_singleton.mp hd]
      exact mt hidden_of_isControl hshown
  -- the short escapes
  all_goals
    revert hd
    revert d
    decide

/-- **A quotation has no control character**, whatever it quotes. -/
theorem controlFree_quoted (s : String) : ControlFree (quoted s) := by
  have hquote : ¬ IsControl '"' := by decide
  refine controlFree_ofList fun c hc => ?_
  simp only [List.cons_append, List.mem_cons, List.mem_append, List.mem_flatMap,
    List.not_mem_nil, or_false] at hc
  rcases hc with rfl | ⟨d, -, hd⟩ | rfl
  · exact hquote
  · exact not_isControl_of_mem_encodeChar hd
  · exact hquote

end BuildFleet.Text
