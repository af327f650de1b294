import BuildFleet.Text.Utf8

/-!
# Text — UTF-8, character by character

The form of a string is that of its characters, one after the other (`encode_eq_flatMap`).  The form
of a character begins with a byte that begins no other place of a form, so the forms of characters
can be told apart: `encodeChar_append_inj`.

Bytes are *valid* if they are the form of a string.  A byte below 0x80 is a character of its own, so
validity can be cut there: `valid_append_cons_iff`.
-/

namespace BuildFleet.Text.Utf8
open String (utf8EncodeChar)

theorem encode_eq_flatMap (s : String) : encode s = s.toList.flatMap utf8EncodeChar := by
  rw [encode, ← String.utf8Encode_toList, List.utf8Encode, List.data_toByteArray]

theorem encode_ofList (cs : List Char) : encode (String.ofList cs) = cs.flatMap utf8EncodeChar := by
  rw [encode_eq_flatMap, String.toList_ofList]

/-! ### One character -/

/-- The form of a character is known by its bytes, whatever follows. -/
theorem encodeChar_append_inj {c d : Char} {xs ys : List UInt8}
    (h : utf8EncodeChar c ++ xs = utf8EncodeChar d ++ ys) : c = d ∧ xs = ys := by
  have hc := @ByteArray.utf8DecodeChar?_utf8EncodeChar_append xs.toByteArray c
  have hd := @ByteArray.utf8DecodeChar?_utf8EncodeChar_append ys.toByteArray d
  rw [← List.toByteArray_append, h, List.toByteArray_append, hd] at hc
  obtain rfl := Option.some.inj hc
  exact ⟨rfl, List.append_cancel_left h⟩

theorem toNat_ofNat {n : Nat} (h : n.isValidChar) : (Char.ofNat n).toNat = n := by
  rw [Char.ofNat, dif_pos h]
  rfl

/-- A character below 0x80 is a single byte. -/
theorem encodeChar_of_toNat_lt {c : Char} (h : c.toNat < 0x80) :
    utf8EncodeChar c = [UInt8.ofNat c.toNat] := by
  have hv : c.val ≤ 127 := UInt32.le_iff_toNat_le.mpr (Nat.le_of_lt_succ h)
  rw [String.utf8EncodeChar_eq_singleton (Char.utf8Size_eq_one_iff.mpr hv)]
  rfl

/-- A byte below 0x80 is the form of a character. -/
theorem encodeChar_of_lt {b : UInt8} (h : b < 0x80) : utf8EncodeChar (Char.ofNat b.toNat) = [b] := by
  have hb : b.toNat < 0x80 := UInt8.lt_iff_toNat_lt.mp h
  have hn : (Char.ofNat b.toNat).toNat = b.toNat := toNat_ofNat (.inl (by omega))
  rw [encodeChar_of_toNat_lt (by rwa [hn]), hn, UInt8.ofNat_toNat]

theorem isUTF8FirstByte_of_lt {b : UInt8} (h : b < 0x80) : b.IsUTF8FirstByte := by
  have hfirst : ∀ hi : 0 < (utf8EncodeChar (Char.ofNat b.toNat)).length,
      ((utf8EncodeChar (Char.ofNat b.toNat))[0]).IsUTF8FirstByte :=
    fun hi => UInt8.isUTF8FirstByte_getElem_utf8EncodeChar.mpr rfl
  rw [encodeChar_of_lt h] at hfirst
  exact hfirst Nat.one_pos

/-- The form of a character is a first byte, and then bytes that are none. -/
theorem exists_encodeChar_eq (c : Char) : ∃ b tail, utf8EncodeChar c = b :: tail ∧
    b.IsUTF8FirstByte ∧ ∀ x ∈ tail, ¬ x.IsUTF8FirstByte := by
  obtain ⟨b, tail, hc⟩ := List.exists_cons_of_ne_nil (String.utf8EncodeChar_ne_nil (c := c))
  have hfirst : ∀ i (hi : i < (b :: tail).length), (b :: tail)[i].IsUTF8FirstByte ↔ i = 0 := by
    rw [← hc]
    exact fun i hi => UInt8.isUTF8FirstByte_getElem_utf8EncodeChar
  refine ⟨b, tail, hc, (hfirst 0 (Nat.succ_pos _)).mpr rfl, fun x hx hx' => ?_⟩
  obtain ⟨i, hi, rfl⟩ := List.getElem_of_mem hx
  exact Nat.succ_ne_zero i ((hfirst (i + 1) (Nat.succ_lt_succ hi)).mp hx')

/-- A character whose form begins with a byte below 0x80 is that byte. -/
theorem encodeChar_eq_singleton {c : Char} {b : UInt8} {tail : List UInt8} (hb : b < 0x80)
    (h : utf8EncodeChar c = b :: tail) : c = Char.ofNat b.toNat ∧ tail = [] := by
  have h' : utf8EncodeChar c ++ [] = utf8EncodeChar (Char.ofNat b.toNat) ++ tail := by
    rw [encodeChar_of_lt hb, h, List.append_nil, List.singleton_append]
  obtain ⟨hc, ht⟩ := encodeChar_append_inj h'
  exact ⟨hc, ht.symm⟩

/-! ### Valid bytes -/

/-- The bytes are the form of a string. -/
def Valid (bytes : List UInt8) : Prop :=
  ∃ cs : List Char, bytes = cs.flatMap utf8EncodeChar

theorem valid_encode (s : String) : Valid (encode s) :=
  ⟨s.toList, encode_eq_flatMap s⟩

theorem valid_nil : Valid [] := ⟨[], rfl⟩

theorem valid_encodeChar (c : Char) : Valid (utf8EncodeChar c) := ⟨[c], by simp⟩

theorem Valid.append {xs ys : List UInt8} (hx : Valid xs) (hy : Valid ys) : Valid (xs ++ ys) := by
  obtain ⟨cs, rfl⟩ := hx
  obtain ⟨ds, rfl⟩ := hy
  exact ⟨cs ++ ds, List.flatMap_append.symm⟩

/-- Valid bytes decode to a string. -/
theorem Valid.decode? {bytes : List UInt8} (h : Valid bytes) : ∃ s, decode? bytes = some s := by
  obtain ⟨cs, rfl⟩ := h
  exact ⟨String.ofList cs, decode?_eq_some_iff.mpr (encode_ofList cs)⟩

/-- The bytes of characters, cut at a byte below 0x80. -/
theorem flatMap_eq_append_cons {cs : List Char} {b : UInt8} (hb : b < 0x80) {xs ys : List UInt8}
    (h : cs.flatMap utf8EncodeChar = xs ++ b :: ys) : Valid xs ∧ Valid ys := by
  induction cs generalizing xs with
  | nil => exact absurd h (by simp)
  | cons c cs ih =>
    obtain ⟨f, tail, hc, -, htail⟩ := exists_encodeChar_eq c
    rw [List.flatMap_cons] at h
    cases xs with
    | nil =>
      -- the byte is the first character
      rw [List.nil_append, hc, List.cons_append, List.cons.injEq] at h
      obtain ⟨rfl, h⟩ := h
      obtain ⟨-, rfl⟩ := encodeChar_eq_singleton hb hc
      exact ⟨valid_nil, cs, h.symm⟩
    | cons x xs =>
      -- the first character lies in front of the byte, which is no byte of its tail
      rcases List.append_eq_append_iff.mp h with ⟨mid, hx, hmid⟩ | ⟨mid, hx, hmid⟩
      · obtain ⟨hv, hv'⟩ := ih hmid
        exact ⟨hx ▸ (valid_encodeChar c).append hv, hv'⟩
      · cases mid with
        | nil =>
          rw [List.append_nil] at hx
          have hmid : cs.flatMap utf8EncodeChar = [] ++ b :: ys := hmid.symm
          exact ⟨hx ▸ valid_encodeChar c, (ih hmid).2⟩
        | cons m mid =>
          rw [List.cons_append, List.cons.injEq] at hmid
          rw [hc, List.cons_append, List.cons.injEq] at hx
          refine absurd (isUTF8FirstByte_of_lt hb) (htail b ?_)
          rw [hx.2, hmid.1]
          exact List.mem_append_right _ List.mem_cons_self

/-- Valid bytes can be cut at a byte below 0x80. -/
theorem valid_append_cons_iff {b : UInt8} (hb : b < 0x80) {xs ys : List UInt8} :
    Valid (xs ++ b :: ys) ↔ Valid xs ∧ Valid ys := by
  refine ⟨?_, ?_⟩
  · rintro ⟨cs, h⟩
    exact flatMap_eq_append_cons hb h.symm
  · rintro ⟨hx, hy⟩
    have h : Valid ([b] ++ ys) := Valid.append (encodeChar_of_lt hb ▸ valid_encodeChar _) hy
    exact hx.append h

theorem valid_cons_iff {b : UInt8} (hb : b < 0x80) {ys : List UInt8} :
    Valid (b :: ys) ↔ Valid ys :=
  (@valid_append_cons_iff b hb [] ys).trans (and_iff_right valid_nil)

end BuildFleet.Text.Utf8
