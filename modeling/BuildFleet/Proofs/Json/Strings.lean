import BuildFleet.Json.Text
import BuildFleet.Proofs.Json.Grammar
import BuildFleet.Proofs.Text.Utf8

/-!
# JSON — the strings that are read, and those that are passed over

The readers of strings and the grammar of strings say the same.

* `skipText_eq_ok_iff`: a string is passed over up to its first closing quote exactly if what stands
  in front of it is a raw body.
* `readText_eq_ok_iff`: a string is read exactly if its body is a spelling of it.

What is read is a list of decoded bytes, of which only the whole has to be UTF-8 (`Decodes`); a
spelling goes character by character.  `spelling_iff_decodes` brings the two together: an escape
decodes to a whole character, so a character of several bytes that begins as itself has to end as
itself.
-/

namespace BuildFleet.Json
open String (utf8EncodeChar)
open Text.Utf8

/-! ### Escapes -/

theorem hexValue?_of_hexDigit {b : UInt8} {n : Nat} (h : HexDigit b n) : hexValue? b = some n := by
  cases h with
  | decimal h =>
    have : ∀ n < 10, hexValue? (UInt8.ofNat (0x30 + n)) = some n := by decide
    exact this _ h
  | lower h =>
    have : ∀ n < 6, hexValue? (UInt8.ofNat (0x61 + n)) = some (10 + n) := by decide
    exact this _ h
  | upper h =>
    have : ∀ n < 6, hexValue? (UInt8.ofNat (0x41 + n)) = some (10 + n) := by decide
    exact this _ h

/-- A byte from `low` on is `low` and some more. -/
theorem eq_ofNat_add {b : UInt8} {low : Nat} (h : low ≤ b.toNat) :
    b = UInt8.ofNat (low + (b.toNat - low)) := by
  rw [Nat.add_sub_cancel' h, UInt8.ofNat_toNat]

theorem hexDigit_of_hexValue? {b : UInt8} {n : Nat} (h : hexValue? b = some n) : HexDigit b n := by
  rw [hexValue?] at h
  simp only [Bool.and_eq_true, decide_eq_true_eq, UInt8.le_iff_toNat_le, UInt8.reduceToNat] at h
  split at h
  · rename_i hb
    cases h
    have hd : HexDigit _ (b.toNat - 0x30) := .decimal (by omega)
    rwa [← eq_ofNat_add hb.1] at hd
  · split at h
    · rename_i hb
      cases h
      have hd : HexDigit _ (10 + (b.toNat - 0x61)) := .lower (by omega)
      rwa [← eq_ofNat_add hb.1, Nat.add_comm] at hd
    · split at h
      · rename_i hb
        cases h
        have hd : HexDigit _ (10 + (b.toNat - 0x41)) := .upper (by omega)
        rwa [← eq_ofNat_add hb.1, Nat.add_comm] at hd
      · cases h

theorem hexValue?_eq_some_iff {b : UInt8} {n : Nat} : hexValue? b = some n ↔ HexDigit b n :=
  ⟨hexDigit_of_hexValue?, hexValue?_of_hexDigit⟩

theorem HexDigit.lt {b : UInt8} {n : Nat} (h : HexDigit b n) : n < 0x10 := by
  cases h <;> omega

theorem HexUnit.lt {digits : Bytes} {n : Nat} (h : HexUnit digits n) : n < 0x10000 := by
  cases h with
  | digits ha hb hc hd =>
    have := ha.lt
    have := hb.lt
    have := hc.lt
    have := hd.lt
    omega

theorem codeUnit?_eq_some_iff {a b c d : UInt8} {n : Nat} :
    codeUnit? a b c d = some n ↔ HexUnit [a, b, c, d] n := by
  refine ⟨?_, ?_⟩
  · intro h
    simp only [codeUnit?, Option.bind_eq_bind, Option.bind_eq_some_iff, Option.some.injEq,
      hexValue?_eq_some_iff] at h
    obtain ⟨i, ha, j, hb, k, hc, l, hd, rfl⟩ := h
    have := HexUnit.digits ha hb hc hd
    rwa [show ((i * 16 + j) * 16 + k) * 16 + l = 0x1000 * i + 0x100 * j + 0x10 * k + l by omega]
  · intro h
    cases h with
    | @digits _ _ _ _ i j k l ha hb hc hd =>
      simp only [codeUnit?, hexValue?_of_hexDigit ha, hexValue?_of_hexDigit hb,
        hexValue?_of_hexDigit hc, hexValue?_of_hexDigit hd, Option.bind_eq_bind, Option.bind_some]
      congr 1
      omega

theorem readCodeUnit_eq_ok_iff {e : Ending} {bytes rest : Bytes} {n : Nat} :
    readCodeUnit e bytes = .ok (n, rest) ↔ ∃ digits, HexUnit digits n ∧ bytes = digits ++ rest := by
  refine ⟨?_, ?_⟩
  · intro h
    unfold readCodeUnit at h
    split at h
    · rename_i a b c d rest'
      split at h
      · rename_i unit hu
        cases h
        exact ⟨_, codeUnit?_eq_some_iff.mp hu, rfl⟩
      · cases h
    · cases h
  · rintro ⟨digits, hu, rfl⟩
    cases hu with
    | digits ha hb hc hd =>
      simp [readCodeUnit, codeUnit?_eq_some_iff.mpr (.digits ha hb hc hd)]

theorem continueEscape_eq_ok_iff {e : Ending} {expected : UInt8} {bytes rest : Bytes} :
    continueEscape e expected bytes = .ok rest ↔ bytes = expected :: rest := by
  cases bytes with
  | nil => simp [continueEscape]
  | cons b bytes => by_cases hb : b = expected <;> simp [continueEscape, hb]

theorem utf8EncodeChar_shortEscapes :
    shortEscapes.map (fun p => (p.1, utf8EncodeChar p.2)) =
      [(quote, [quote]), (backslash, [backslash]), (0x2f, [0x2f]), (0x62, [0x08]), (0x66, [0x0c]),
       (0x6e, [0x0a]), (0x72, [0x0d]), (0x74, [0x09])] := by
  decide

/-- A short escape stands for a character of one byte. -/
theorem shortEscape?_eq_some_iff {letter b : UInt8} :
    shortEscape? letter = some b ↔ ∃ c, (letter, c) ∈ shortEscapes ∧ utf8EncodeChar c = [b] := by
  refine ⟨?_, ?_⟩
  · intro h
    have hm : (letter, [b]) ∈ shortEscapes.map (fun p => (p.1, utf8EncodeChar p.2)) := by
      rw [utf8EncodeChar_shortEscapes]
      rw [shortEscape?] at h
      grind
    obtain ⟨⟨l, c⟩, hc, he⟩ := List.mem_map.mp hm
    obtain ⟨hl, he⟩ := Prod.mk.inj he
    exact ⟨c, hl ▸ hc, he⟩
  · rintro ⟨c, hc, he⟩
    have hm : (letter, [b]) ∈ shortEscapes.map (fun p => (p.1, utf8EncodeChar p.2)) :=
      List.mem_map.mpr ⟨_, hc, by rw [he]⟩
    rw [utf8EncodeChar_shortEscapes] at hm
    simp only [List.mem_cons, Prod.mk.injEq, List.cons.injEq, and_true, List.not_mem_nil,
      or_false] at hm
    rcases hm with ⟨rfl, rfl⟩ | ⟨rfl, rfl⟩ | ⟨rfl, rfl⟩ | ⟨rfl, rfl⟩ | ⟨rfl, rfl⟩ | ⟨rfl, rfl⟩ |
      ⟨rfl, rfl⟩ | ⟨rfl, rfl⟩ <;> rfl

theorem shortEscape?_of_mem {letter : UInt8} {c : Char} (h : (letter, c) ∈ shortEscapes) :
    ∃ b, shortEscape? letter = some b ∧ utf8EncodeChar c = [b] := by
  have hone : ∀ p ∈ shortEscapes, (utf8EncodeChar p.2).length = 1 := by decide
  obtain ⟨b, hb⟩ := List.length_eq_one_iff.mp (hone _ h)
  exact ⟨b, shortEscape?_eq_some_iff.mpr ⟨c, h, hb⟩, hb⟩

theorem isSome_shortEscape?_iff {letter : UInt8} :
    (shortEscape? letter).isSome = true ↔ letter ∈ shortEscapes.map Prod.fst := by
  rw [Option.isSome_iff_exists, List.mem_map]
  refine ⟨?_, ?_⟩
  · rintro ⟨b, h⟩
    obtain ⟨c, hc, -⟩ := shortEscape?_eq_some_iff.mp h
    exact ⟨_, hc, rfl⟩
  · rintro ⟨⟨l, c⟩, hc, rfl⟩
    obtain ⟨b, h, -⟩ := shortEscape?_of_mem hc
    exact ⟨b, h⟩

theorem shortEscape?_letterU : shortEscape? letterU = none := rfl

/-- A code unit that is no surrogate is the number of a character. -/
theorem isValidChar_of_not_surrogate {n : Nat} (h : n < 0x10000) (hl : isLeading n = false)
    (ht : isTrailing n = false) : n.isValidChar := by
  simp only [isLeading, isTrailing, Bool.and_eq_false_iff, decide_eq_false_iff_not] at hl ht
  unfold Nat.isValidChar
  omega

theorem not_surrogate (c : Char) : isLeading c.toNat = false ∧ isTrailing c.toNat = false := by
  have hc : c.toNat.isValidChar := c.valid
  simp only [isLeading, isTrailing, Bool.and_eq_false_iff, decide_eq_false_iff_not]
  unfold Nat.isValidChar at hc
  omega

theorem isValidChar_pairCodePoint {leading trailing : Nat} (hl : isLeading leading = true)
    (ht : isTrailing trailing = true) : (pairCodePoint leading trailing).isValidChar := by
  simp only [isLeading, isTrailing, Bool.and_eq_true, decide_eq_true_eq] at hl ht
  unfold Nat.isValidChar pairCodePoint
  omega

theorem codePointBytes_toNat (c : Char) : codePointBytes c.toNat = utf8EncodeChar c := by
  rw [codePointBytes, Char.ofNat_toNat]

/-- The character of a number, and its bytes. -/
theorem exists_char {n : Nat} (h : n.isValidChar) :
    ∃ c : Char, c.toNat = n ∧ codePointBytes n = utf8EncodeChar c :=
  ⟨Char.ofNat n, toNat_ofNat h, rfl⟩

/-- What is read after the letter `u` are the escapes of a character by code units. -/
theorem readUnitEscape_eq_ok_iff {e : Ending} {bytes decoded rest : Bytes} :
    readUnitEscape e bytes = .ok (decoded, rest) ↔
      ∃ c text, UnitEscape c text ∧ decoded = utf8EncodeChar c ∧ bytes = text ++ rest := by
  refine ⟨?_, ?_⟩
  · intro h
    obtain ⟨⟨unit, rest₁⟩, h₁, h₂⟩ := bind_eq_ok.mp h
    clear h
    obtain ⟨digits, hu, rfl⟩ := readCodeUnit_eq_ok_iff.mp h₁
    dsimp only at h₂
    -- a trailing surrogate comes first in no pair, a leading one in all of them
    split at h₂
    · cases h₂
    · rename_i ht
      rw [Bool.not_eq_true] at ht
      split at h₂
      · rename_i hl
        obtain ⟨rest₂, hb, h₃⟩ := bind_eq_ok.mp h₂
        obtain ⟨rest₃, hc, h₄⟩ := bind_eq_ok.mp h₃
        obtain ⟨⟨trailing, rest₄⟩, hd, h₅⟩ := bind_eq_ok.mp h₄
        clear h₂ h₃ h₄
        obtain rfl := continueEscape_eq_ok_iff.mp hb
        obtain rfl := continueEscape_eq_ok_iff.mp hc
        obtain ⟨low, hlow, rfl⟩ := readCodeUnit_eq_ok_iff.mp hd
        dsimp only at h₅
        split at h₅
        · rename_i ht'
          obtain ⟨rfl, rfl⟩ := Prod.mk.inj (Except.ok.inj h₅)
          obtain ⟨c, hc, hd⟩ := exists_char (isValidChar_pairCodePoint hl ht')
          simp only [isLeading, isTrailing, Bool.and_eq_true, decide_eq_true_eq] at hl ht'
          exact ⟨c, _, .pair hu hlow hl.1 hl.2 ht'.1 ht'.2 hc, hd, by simp⟩
        · cases h₅
      · rename_i hl
        rw [Bool.not_eq_true] at hl
        cases h₂
        obtain ⟨c, rfl, hd⟩ := exists_char (isValidChar_of_not_surrogate hu.lt hl ht)
        exact ⟨c, digits, .unit hu, hd, rfl⟩
  · rintro ⟨c, text, hc, rfl, rfl⟩
    cases hc with
    | unit hu =>
      obtain ⟨hl, ht⟩ := not_surrogate c
      refine bind_eq_ok.mpr ⟨_, readCodeUnit_eq_ok_iff.mpr ⟨_, hu, rfl⟩, ?_⟩
      simp [hl, ht, codePointBytes_toNat]
    | @pair high low leading trailing hh hlow hl hl' ht ht' hc =>
      have hlead : isLeading leading = true := by simp [isLeading, hl, hl']
      have htrail : isTrailing trailing = true := by simp [isTrailing, ht, ht']
      have hnot : isTrailing leading = false := by
        simp only [isTrailing, Bool.and_eq_false_iff, decide_eq_false_iff_not]
        omega
      have hpair : pairCodePoint leading trailing = c.toNat := hc.symm
      refine bind_eq_ok.mpr
        ⟨(leading, backslash :: letterU :: (low ++ rest)),
          readCodeUnit_eq_ok_iff.mpr ⟨high, hh, by simp⟩, ?_⟩
      simp only [hnot, hlead, Bool.false_eq_true, if_false, if_true]
      refine bind_eq_ok.mpr ⟨_, continueEscape_eq_ok_iff.mpr rfl, ?_⟩
      refine bind_eq_ok.mpr ⟨_, continueEscape_eq_ok_iff.mpr rfl, ?_⟩
      refine bind_eq_ok.mpr ⟨_, readCodeUnit_eq_ok_iff.mpr ⟨low, hlow, rfl⟩, ?_⟩
      simp [htrail, hpair, codePointBytes_toNat]

/-- What is read after a backslash are the escapes of a character. -/
theorem readEscape_eq_ok_iff {e : Ending} {bytes decoded rest : Bytes} :
    readEscape e bytes = .ok (decoded, rest) ↔
      ∃ c text, Escape c text ∧ decoded = utf8EncodeChar c ∧ bytes = text ++ rest := by
  refine ⟨?_, ?_⟩
  · intro h
    unfold readEscape at h
    split at h
    · cases h
    · split at h
      · rename_i hs
        cases h
        obtain ⟨c, hc, he⟩ := shortEscape?_eq_some_iff.mp hs
        exact ⟨c, _, .short hc, he.symm, rfl⟩
      · split at h
        · rename_i hu
          obtain rfl := eq_of_beq hu
          obtain ⟨c, text, hc, rfl, rfl⟩ := readUnitEscape_eq_ok_iff.mp h
          exact ⟨c, _, .units hc, rfl, rfl⟩
        · cases h
  · rintro ⟨c, text, hc, rfl, rfl⟩
    cases hc with
    | short hc =>
      obtain ⟨b, hs, he⟩ := shortEscape?_of_mem hc
      simp [readEscape, hs, he]
    | units hc =>
      simp only [List.cons_append, readEscape, shortEscape?_letterU, beq_self_eq_true, if_true]
      exact readUnitEscape_eq_ok_iff.mpr ⟨c, _, hc, rfl, rfl⟩

/-- What is passed over after a backslash are escapes of which the code unit does not matter. -/
theorem skipEscape_eq_ok_iff {e : Ending} {bytes rest : Bytes} :
    skipEscape e bytes = .ok rest ↔ ∃ text, RawEscape text ∧ bytes = text ++ rest := by
  refine ⟨?_, ?_⟩
  · intro h
    unfold skipEscape at h
    split at h
    · cases h
    · split at h
      · rename_i hs
        cases h
        exact ⟨_, .short (isSome_shortEscape?_iff.mp hs), rfl⟩
      · split at h
        · rename_i hu
          obtain rfl := eq_of_beq hu
          obtain ⟨⟨unit, rest₁⟩, h₁, h⟩ := bind_eq_ok.mp h
          cases h
          obtain ⟨digits, hd, rfl⟩ := readCodeUnit_eq_ok_iff.mp h₁
          exact ⟨_, .unit hd, rfl⟩
        · cases h
  · rintro ⟨text, ht, rfl⟩
    cases ht with
    | short hs => simp [skipEscape, isSome_shortEscape?_iff.mpr hs]
    | unit hd =>
      simp only [List.cons_append, skipEscape, shortEscape?_letterU, Option.isSome_none,
        Bool.false_eq_true, if_false, beq_self_eq_true, if_true]
      exact bind_eq_ok.mpr ⟨_, readCodeUnit_eq_ok_iff.mpr ⟨_, hd, rfl⟩, rfl⟩

/-! ### Bytes that stand for themselves -/

theorem plainByte_of_not {b : UInt8} (hq : ¬ (b == quote) = true) (hb : ¬ (b == backslash) = true)
    (hc : ¬ isControl b = true) : PlainByte b := by
  simp only [isControl, decide_eq_true_eq, UInt8.not_lt] at hc
  exact ⟨hc, fun h => hq (h ▸ beq_self_eq_true _), fun h => hb (h ▸ beq_self_eq_true _)⟩

/-- What the readers ask about a byte that stands for itself. -/
theorem PlainByte.eq_false {b : UInt8} (h : PlainByte b) :
    (b == quote) = false ∧ (b == backslash) = false ∧ isControl b = false := by
  refine ⟨beq_eq_false_iff_ne.mpr h.2.1, beq_eq_false_iff_ne.mpr h.2.2, ?_⟩
  rw [isControl, decide_eq_false_iff_not, UInt8.not_lt]
  exact h.1

theorem plainByte_of_le {b : UInt8} (h : 0x80 ≤ b) : PlainByte b := by
  have hn : ∀ n : UInt8, n < 0x80 → b ≠ n := fun n hn he => UInt8.not_lt.mpr h (he ▸ hn)
  exact ⟨UInt8.le_trans (by decide) h, hn _ (by decide), hn _ (by decide)⟩

/-- A character stands for itself if its first byte does. -/
theorem plainByte_iff {c : Char} {b : UInt8} {tail : Bytes} (h : utf8EncodeChar c = b :: tail) :
    PlainByte b ↔ 0x20 ≤ c.toNat ∧ c ≠ '"' ∧ c ≠ '\\' := by
  by_cases hb : b < 0x80
  · obtain ⟨rfl, -⟩ := encodeChar_eq_singleton hb h
    have hall : ∀ n < 0x80, PlainByte (UInt8.ofNat n) ↔
        0x20 ≤ (Char.ofNat n).toNat ∧ Char.ofNat n ≠ '"' ∧ Char.ofNat n ≠ '\\' := by
      unfold PlainByte
      decide +kernel
    have := hall b.toNat (UInt8.lt_iff_toNat_lt.mp hb)
    rwa [UInt8.ofNat_toNat] at this
  · -- then it is none of the characters that have to be escaped, which are single bytes
    refine iff_of_true (plainByte_of_le (UInt8.not_lt.mp hb)) ?_
    have hc : 0x80 ≤ c.toNat := by
      refine Nat.le_of_not_lt fun hc => hb ?_
      obtain ⟨rfl, -⟩ := List.cons.inj ((encodeChar_of_toNat_lt hc).symm.trans h)
      rw [UInt8.lt_iff_toNat_lt, UInt8.toNat_ofNat_of_lt' (by rw [UInt8.size]; omega)]
      exact hc
    refine ⟨by omega, ?_, ?_⟩ <;> (rintro rfl; revert hc; decide)

theorem plainByte_of_mem_encodeChar {c : Char} (hlow : 0x20 ≤ c.toNat) (hq : c ≠ '"') (hb : c ≠ '\\') :
    ∀ x ∈ utf8EncodeChar c, PlainByte x := by
  intro x hx
  obtain ⟨b, tail, he, -, htail⟩ := exists_encodeChar_eq c
  rw [he] at hx
  rcases List.mem_cons.mp hx with rfl | hx
  · exact (plainByte_iff he).mpr ⟨hlow, hq, hb⟩
  · exact plainByte_of_le (UInt8.not_lt.mp fun hlt => htail x hx (isUTF8FirstByte_of_lt hlt))

/-! ### Strings that are passed over -/

theorem skipText_of_rawBody {e : Ending} {body : Bytes} (h : RawBody body) (rest : Bytes) :
    skipText e (body ++ quote :: rest) = .ok rest := by
  induction h with
  | nil => rw [List.nil_append, skipText, if_pos (beq_self_eq_true _)]
  | byte hb _ ih =>
    obtain ⟨hq, hs, hc⟩ := hb.eq_false
    rw [List.cons_append, skipText]
    simp [hq, hs, hc, ih]
  | @escape text more ht _ ih =>
    have hesc : skipEscape e (text ++ (more ++ quote :: rest)) = .ok (more ++ quote :: rest) :=
      skipEscape_eq_ok_iff.mpr ⟨text, ht, rfl⟩
    rw [List.cons_append, List.cons_append, List.append_assoc, skipText]
    simp only [show (backslash == quote) = false from rfl, Bool.false_eq_true, if_false,
      beq_self_eq_true, if_true]
    split
    · rename_i he
      rw [hesc] at he
      cases he
    · rename_i he
      rw [hesc] at he
      cases he
      exact ih

/-- A string is passed over up to its first closing quote. -/
theorem skipText_eq_ok_iff {e : Ending} {bytes rest : Bytes} :
    skipText e bytes = .ok rest ↔ ∃ body, RawBody body ∧ bytes = body ++ quote :: rest := by
  refine ⟨?_, ?_⟩
  · intro h
    fun_induction skipText e bytes with
    | case1 => cases h
    | case2 b rest' hq =>
      cases h
      exact ⟨[], .nil, by rw [eq_of_beq hq, List.nil_append]⟩
    | case3 => cases h
    | case4 b rest' hq hb rest'' hesc ih =>
      obtain ⟨text, ht, rfl⟩ := skipEscape_eq_ok_iff.mp hesc
      obtain ⟨body, hbody, rfl⟩ := ih h
      refine ⟨_, .escape ht hbody, ?_⟩
      rw [eq_of_beq hb]
      simp
    | case5 => cases h
    | case6 b rest' hq hb hc ih =>
      obtain ⟨body, hbody, rfl⟩ := ih h
      exact ⟨_, .byte (plainByte_of_not hq hb hc) hbody, rfl⟩
  · rintro ⟨body, hbody, rfl⟩
    exact skipText_of_rawBody hbody rest

/-! ### Strings that are read -/

/-- The bytes that the inside of a string decodes to, which need not be UTF-8. -/
inductive Decodes : Bytes → Bytes → Prop where
  | nil : Decodes [] []
  | byte {b : UInt8} {decoded more : Bytes} : PlainByte b → Decodes decoded more →
      Decodes (b :: decoded) (b :: more)
  | escape {c : Char} {text decoded more : Bytes} : Escape c text → Decodes decoded more →
      Decodes (utf8EncodeChar c ++ decoded) (backslash :: text ++ more)

theorem readTextBytes_of_decodes {e : Ending} {decoded body : Bytes} (h : Decodes decoded body)
    (done rest : Bytes) :
    readTextBytes e done (body ++ quote :: rest) = .ok (done.reverse ++ decoded, rest) := by
  induction h generalizing done with
  | nil => rw [List.nil_append, readTextBytes, if_pos (beq_self_eq_true _), List.append_nil]
  | byte hb _ ih =>
    obtain ⟨hq, hs, hc⟩ := hb.eq_false
    rw [List.cons_append, readTextBytes]
    simp [hq, hs, hc, ih]
  | @escape c text decoded more ht _ ih =>
    have hesc : readEscape e (text ++ (more ++ quote :: rest)) =
        .ok (utf8EncodeChar c, more ++ quote :: rest) :=
      readEscape_eq_ok_iff.mpr ⟨c, text, ht, rfl, rfl⟩
    rw [List.cons_append, List.cons_append, List.append_assoc, readTextBytes]
    simp only [show (backslash == quote) = false from rfl, Bool.false_eq_true, if_false,
      beq_self_eq_true, if_true]
    split
    · rename_i he
      rw [hesc] at he
      cases he
    · rename_i he
      rw [hesc] at he
      obtain ⟨rfl, rfl⟩ := Prod.mk.inj (Except.ok.inj he)
      rw [ih]
      simp

theorem readTextBytes_eq_ok_iff {e : Ending} {done bytes decoded rest : Bytes} :
    readTextBytes e done bytes = .ok (decoded, rest) ↔
      ∃ more body, Decodes more body ∧ decoded = done.reverse ++ more ∧
        bytes = body ++ quote :: rest := by
  refine ⟨?_, ?_⟩
  · intro h
    fun_induction readTextBytes e done bytes with
    | case1 => cases h
    | case2 done b rest' hq =>
      cases h
      exact ⟨[], [], .nil, (List.append_nil _).symm, by rw [eq_of_beq hq, List.nil_append]⟩
    | case3 => cases h
    | case4 done b rest' hq hb decoded' rest'' hesc ih =>
      obtain ⟨c, text, hc, rfl, rfl⟩ := readEscape_eq_ok_iff.mp hesc
      obtain ⟨more, body, hmore, rfl, rfl⟩ := ih h
      refine ⟨_, _, .escape hc hmore, by simp, ?_⟩
      rw [eq_of_beq hb]
      simp
    | case5 => cases h
    | case6 done b rest' hq hb hc ih =>
      obtain ⟨more, body, hmore, rfl, rfl⟩ := ih h
      exact ⟨_, _, .byte (plainByte_of_not hq hb hc) hmore, by simp, rfl⟩
  · rintro ⟨more, body, hmore, rfl, rfl⟩
    exact readTextBytes_of_decodes hmore done rest

/-- Bytes that stand for themselves, in front of more. -/
theorem Decodes.append {bs decoded more : Bytes} (hbs : ∀ b ∈ bs, PlainByte b)
    (h : Decodes decoded more) : Decodes (bs ++ decoded) (bs ++ more) := by
  induction bs with
  | nil => exact h
  | cons b bs ih =>
    exact .byte (hbs b List.mem_cons_self) (ih fun x hx => hbs x (List.mem_cons_of_mem b hx))

/-- Bytes that begin no character are not the result of an escape. -/
theorem Decodes.of_append {tail decoded body : Bytes} (htail : ∀ b ∈ tail, ¬ b.IsUTF8FirstByte)
    (h : Decodes (tail ++ decoded) body) :
    ∃ more, body = tail ++ more ∧ Decodes decoded more := by
  induction tail generalizing body with
  | nil => exact ⟨body, rfl, h⟩
  | cons b tail ih =>
    generalize ht : b :: tail ++ decoded = total at h
    cases h with
    | nil => cases ht
    | byte hb h =>
      obtain ⟨rfl, rfl⟩ := List.cons.inj ht
      obtain ⟨more, rfl, hmore⟩ := ih (fun x hx => htail x (List.mem_cons_of_mem b hx)) h
      exact ⟨more, rfl, hmore⟩
    | @escape c =>
      -- an escape gives a whole character, from its first byte on
      obtain ⟨first, others, hc, hfirst, -⟩ := exists_encodeChar_eq c
      rw [hc] at ht
      obtain ⟨rfl, -⟩ := List.cons.inj ht
      exact absurd hfirst (htail b List.mem_cons_self)

theorem Spelling.decodes {cs : List Char} {body : Bytes} (h : Spelling cs body) :
    Decodes (cs.flatMap utf8EncodeChar) body := by
  induction h with
  | nil => exact .nil
  | @cons c cs text more hc _ ih =>
    rw [List.flatMap_cons]
    cases hc with
    | plain hlow hq hb => exact Decodes.append (plainByte_of_mem_encodeChar hlow hq hb) ih
    | escaped hc => exact .escape hc ih

theorem spelling_of_decodes {cs : List Char} {body : Bytes}
    (h : Decodes (cs.flatMap utf8EncodeChar) body) : Spelling cs body := by
  induction cs generalizing body with
  | nil =>
    generalize hd : List.flatMap utf8EncodeChar [] = total at h
    cases h with
    | nil => exact .nil
    | byte => cases hd
    | @escape c =>
      obtain ⟨first, others, hc, -⟩ := exists_encodeChar_eq c
      rw [hc] at hd
      cases hd
  | cons c cs ih =>
    obtain ⟨b, tail, hc, -, htail⟩ := exists_encodeChar_eq c
    generalize hd : (c :: cs).flatMap utf8EncodeChar = total at h
    rw [List.flatMap_cons] at hd
    cases h with
    | nil =>
      rw [hc] at hd
      cases hd
    | byte hb h =>
      -- a character that begins as itself goes on as itself
      rw [hc] at hd
      obtain ⟨rfl, rfl⟩ := List.cons.inj hd
      obtain ⟨more, rfl, hmore⟩ := Decodes.of_append htail h
      obtain ⟨hlow, hq, hs⟩ := (plainByte_iff hc).mp hb
      have hplain : CharSpelling c (b :: tail) := hc ▸ .plain hlow hq hs
      exact .cons hplain (ih hmore)
    | escape hesc h =>
      obtain ⟨rfl, rfl⟩ := encodeChar_append_inj hd
      exact .cons (.escaped hesc) (ih h)

/-- The spellings of a text decode to its bytes, and nothing else does. -/
theorem spelling_iff_decodes {cs : List Char} {body : Bytes} :
    Spelling cs body ↔ Decodes (cs.flatMap utf8EncodeChar) body :=
  ⟨Spelling.decodes, spelling_of_decodes⟩

/-- A string is read if its inside, up to the first closing quote, is a spelling of it. -/
theorem readText_eq_ok_iff {e : Ending} {bytes rest : Bytes} {s : String} :
    readText e bytes = .ok (s, rest) ↔
      ∃ body, Spelling s.toList body ∧ bytes = body ++ quote :: rest := by
  refine ⟨?_, ?_⟩
  · intro h
    obtain ⟨⟨decoded, rest₁⟩, h₁, h₂⟩ := bind_eq_ok.mp h
    obtain ⟨more, body, hmore, rfl, rfl⟩ := readTextBytes_eq_ok_iff.mp h₁
    dsimp only at h₂
    split at h₂
    · rename_i hs
      cases h₂
      rw [decode?_eq_some_iff, encode_eq_flatMap] at hs
      exact ⟨body, spelling_iff_decodes.mpr (hs ▸ hmore), rfl⟩
    · cases h₂
  · rintro ⟨body, hbody, rfl⟩
    have hs : decode? (s.toList.flatMap utf8EncodeChar) = some s :=
      decode?_eq_some_iff.mpr (encode_eq_flatMap s)
    refine bind_eq_ok.mpr ⟨_, readTextBytes_of_decodes (spelling_iff_decodes.mp hbody) [] rest, ?_⟩
    simp [hs]

end BuildFleet.Json
