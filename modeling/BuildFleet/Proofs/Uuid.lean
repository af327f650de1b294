import Mathlib.Data.List.Basic
import BuildFleet.Uuid

/-!
# UUIDs — their spellings

`Spelling` says what the spellings of a UUID are, by the groups of their digits; `isUuid_iff`: these are
the texts that are taken for UUIDs.

The digits and hyphens of a grouped spelling are looked at place by place (`Fits`), so a group is read
off the front of what is left, with the place at which it begins (`fits_group`).

A spelling is at least 32 characters long, and none of them is a line feed (`Spelling.length_le`,
`Spelling.not_mem_newline`).
-/

namespace BuildFleet.Uuid

/-- So many hexadecimal digits, and nothing else. -/
def Digits (n : Nat) (s : List Char) : Prop :=
  s.length = n ∧ ∀ c ∈ s, isHexDigit c = true

/-- Groups of 8, 4, 4, 4 and 12 digits with hyphens between them. -/
inductive Grouped : List Char → Prop where
  | groups {a b c d e : List Char} : Digits 8 a → Digits 4 b → Digits 4 c → Digits 4 d → Digits 12 e →
      Grouped (a ++ '-' :: (b ++ '-' :: (c ++ '-' :: (d ++ '-' :: e))))

/-- The spellings of a UUID. -/
inductive Spelling : List Char → Prop where
  /-- 32 digits. -/
  | plain {s : List Char} : Digits 32 s → Spelling s
  | grouped {s : List Char} : Grouped s → Spelling s
  | braced {s : List Char} : Grouped s → Spelling ('{' :: (s ++ ['}']))
  /-- After the name of their namespace, in either case. -/
  | named {name s : List Char} : name.map Char.toLower = "urn:uuid:".toList → Grouped s →
      Spelling (name ++ s)

/-! ### Digits and hyphens in their places -/

/-- From this place on, there is a hyphen in each place of one, and a digit in each other place. -/
def Fits (start : Nat) (s : List Char) : Prop :=
  (s.zipIdx start).all fun (c, index) => if isHyphenPlace index then c == '-' else isHexDigit c

theorem fits_append {start : Nat} {s t : List Char} :
    Fits start (s ++ t) ↔ Fits start s ∧ Fits (start + s.length) t := by
  rw [Fits, List.zipIdx_append, List.all_append, Bool.and_eq_true]
  rfl

theorem fits_cons {start : Nat} {c : Char} {s : List Char} :
    Fits start (c :: s) ↔
      (if isHyphenPlace start then c = '-' else isHexDigit c = true) ∧ Fits (start + 1) s := by
  rw [Fits, List.zipIdx_cons, List.all_cons, Bool.and_eq_true]
  refine and_congr_left fun _ => ?_
  show (if isHyphenPlace start then c == '-' else isHexDigit c) = true ↔ _
  split <;> simp

/-- Where no hyphen has a place, there are digits. -/
theorem fits_digits {start : Nat} {s : List Char}
    (h : ∀ i < s.length, isHyphenPlace (start + i) = false) :
    Fits start s ↔ ∀ c ∈ s, isHexDigit c = true := by
  induction s generalizing start with
  | nil => exact iff_of_true rfl (fun _ hc => nomatch hc)
  | cons c s ih =>
    have hstart : isHyphenPlace start = false := h 0 (Nat.succ_pos _)
    have hrest : ∀ i < s.length, isHyphenPlace (start + 1 + i) = false := fun i hi => by
      rw [Nat.add_right_comm, Nat.add_assoc]
      exact h (i + 1) (Nat.succ_lt_succ hi)
    rw [fits_cons, ih hrest, List.forall_mem_cons, hstart]
    exact Iff.rfl

/-- A group of digits, and the hyphen behind it. -/
theorem fits_group {start n : Nat} {a rest : List Char} {c : Char} (ha : a.length = n)
    (hdigits : ∀ i < n, isHyphenPlace (start + i) = false) (hhyphen : isHyphenPlace (start + n)) :
    Fits start (a ++ c :: rest) ↔ Digits n a ∧ c = '-' ∧ Fits (start + n + 1) rest := by
  subst ha
  rw [fits_append, fits_digits hdigits, fits_cons, if_pos hhyphen, Digits]
  exact and_congr_left fun _ => (and_iff_right rfl).symm

theorem exists_group {n : Nat} {s : List Char} (h : n < s.length) :
    ∃ a c rest, s = a ++ c :: rest ∧ a.length = n :=
  ⟨s.take n, s[n], s.drop (n + 1), by simp, List.length_take_of_le (Nat.le_of_lt h)⟩

theorem isGrouped_iff {s : List Char} : isGrouped s = true ↔ Grouped s := by
  rw [isGrouped, Bool.and_eq_true, beq_iff_eq]
  refine ⟨?_, ?_⟩
  · rintro ⟨hlength, hfits⟩
    obtain ⟨a, _, s₁, rfl, ha⟩ := exists_group (show 8 < s.length by omega)
    simp only [List.length_append, List.length_cons] at hlength
    obtain ⟨b, _, s₂, rfl, hb⟩ := exists_group (show 4 < s₁.length by omega)
    simp only [List.length_append, List.length_cons] at hlength
    obtain ⟨c, _, s₃, rfl, hc⟩ := exists_group (show 4 < s₂.length by omega)
    simp only [List.length_append, List.length_cons] at hlength
    obtain ⟨d, _, e, rfl, hd⟩ := exists_group (show 4 < s₃.length by omega)
    simp only [List.length_append, List.length_cons] at hlength
    have he : e.length = 12 := by omega
    change Fits 0 _ at hfits
    rw [fits_group ha (by decide) (by decide), fits_group hb (by decide) (by decide),
      fits_group hc (by decide) (by decide), fits_group hd (by decide) (by decide),
      fits_digits (by rw [he]; decide)] at hfits
    obtain ⟨hda, rfl, hdb, rfl, hdc, rfl, hdd, rfl, hde⟩ := hfits
    exact .groups hda hdb hdc hdd ⟨he, hde⟩
  · rintro ⟨ha, hb, hc, hd, he⟩
    refine ⟨?_, ?_⟩
    · simp only [List.length_append, List.length_cons, ha.1, hb.1, hc.1, hd.1, he.1]
    · show Fits 0 _
      rw [fits_group ha.1 (by decide) (by decide), fits_group hb.1 (by decide) (by decide),
        fits_group hc.1 (by decide) (by decide), fits_group hd.1 (by decide) (by decide),
        fits_digits (by rw [he.1]; decide)]
      exact ⟨ha, rfl, hb, rfl, hc, rfl, hd, rfl, he.2⟩

/-! ### All spellings -/

theorem isPlain_iff {s : List Char} : isPlain s = true ↔ Digits 32 s := by
  simp [isPlain, Digits]

theorem isBraced_iff {s : List Char} :
    isBraced s = true ↔ ∃ inner, Grouped inner ∧ s = '{' :: (inner ++ ['}']) := by
  unfold isBraced
  split
  · rename_i rest
    simp only [Bool.and_eq_true, beq_iff_eq, isGrouped_iff, List.getLast?_eq_some_iff,
      List.cons.injEq, true_and]
    refine ⟨?_, ?_⟩
    · rintro ⟨⟨inner, rfl⟩, h⟩
      rw [List.dropLast_concat] at h
      exact ⟨inner, h, rfl⟩
    · rintro ⟨inner, h, rfl⟩
      rw [List.dropLast_concat]
      exact ⟨⟨inner, rfl⟩, h⟩
  · rename_i hother
    refine iff_of_false (by simp) ?_
    rintro ⟨inner, -, rfl⟩
    exact hother _ rfl

theorem isNamed_iff {s : List Char} :
    isNamed s = true ↔
      ∃ name inner, name.map Char.toLower = "urn:uuid:".toList ∧ Grouped inner ∧ s = name ++ inner := by
  rw [isNamed, Bool.and_eq_true, beq_iff_eq, isGrouped_iff]
  refine ⟨fun ⟨hname, h⟩ => ⟨_, _, hname, h, (List.take_append_drop 9 s).symm⟩, ?_⟩
  rintro ⟨name, inner, hname, h, rfl⟩
  have hlength : name.length = 9 := by
    rw [← List.length_map, hname]
    rfl
  rw [List.take_left' hlength, List.drop_left' hlength]
  exact ⟨hname, h⟩

/-- **The texts that are taken for UUIDs** are the spellings of one. -/
theorem isUuid_iff {text : String} : isUuid text = true ↔ Spelling text.toList := by
  simp only [isUuid, Bool.or_eq_true, isPlain_iff, isGrouped_iff, isBraced_iff, isNamed_iff]
  generalize text.toList = s
  refine ⟨?_, fun h => ?_⟩
  · rintro (((h | h) | ⟨inner, h, rfl⟩) | ⟨name, inner, hname, h, rfl⟩)
    · exact .plain h
    · exact .grouped h
    · exact .braced h
    · exact .named hname h
  · cases h with
    | plain h => exact .inl (.inl (.inl h))
    | grouped h => exact .inl (.inl (.inr h))
    | braced h => exact .inl (.inr ⟨_, h, rfl⟩)
    | named hname h => exact .inr ⟨_, _, hname, h, rfl⟩

instance (s : List Char) : Decidable (Spelling s) :=
  decidable_of_iff (isUuid (String.ofList s) = true) (by rw [isUuid_iff, String.toList_ofList])

/-! ### Their characters -/

theorem Grouped.length_eq {s : List Char} (h : Grouped s) : s.length = 36 := by
  cases h with
  | groups ha hb hc hd he =>
    simp only [List.length_append, List.length_cons, ha.1, hb.1, hc.1, hd.1, he.1]

theorem Spelling.length_le {s : List Char} (h : Spelling s) : 32 ≤ s.length := by
  cases h with
  | plain h => exact Nat.le_of_eq h.1.symm
  | grouped h => simp [h.length_eq]
  | braced h => simp [h.length_eq]
  | named _ h => simp [h.length_eq]

theorem Digits.not_mem_newline {n : Nat} {s : List Char} (h : Digits n s) : '\n' ∉ s :=
  fun hc => absurd (h.2 _ hc) (by decide)

theorem Grouped.not_mem_newline {s : List Char} (h : Grouped s) : '\n' ∉ s := by
  cases h with
  | groups ha hb hc hd he =>
    simp [ha.not_mem_newline, hb.not_mem_newline, hc.not_mem_newline, hd.not_mem_newline,
      he.not_mem_newline]

/-- A spelling is all on one line. -/
theorem Spelling.not_mem_newline {s : List Char} (h : Spelling s) : '\n' ∉ s := by
  cases h with
  | plain h => exact h.not_mem_newline
  | grouped h => exact h.not_mem_newline
  | braced h => simp [h.not_mem_newline]
  | named hname h =>
    rw [List.mem_append, not_or]
    refine ⟨fun hc => ?_, h.not_mem_newline⟩
    have hlower : Char.toLower '\n' ∈ "urn:uuid:".toList := by
      rw [← hname]
      exact List.mem_map_of_mem hc
    exact absurd hlower (by decide)

end BuildFleet.Uuid
