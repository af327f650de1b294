import BuildFleet.Json.Record
import BuildFleet.Proofs.Json.Skipping

/-!
# JSON — faults with a place

Of the marks of a fault, `nowhere` gives no place, and `behind` one that is counted in decoded bytes.
The first is for streams that fail, and the second for strings that are not UTF-8.  The others say
which bytes count (`Mark.Placed`).

The bytes of a string are UTF-8, so are those ahead of each step in them, and what is decoded from
them.  A step `Meets` a property if its value has it and its fault has a place.

* `meets_readText`: reading a string keeps the bytes ahead UTF-8, and so does `meets_skipValue`.
* `placed_…`: the steps whose faults have a place whatever the bytes.
-/

namespace BuildFleet.Json
open String (utf8EncodeChar)
open Text.Utf8

/-- The mark says which bytes count. -/
def Mark.Placed : Mark → Prop
  | .consumed _ | .peeked _ | .looked _ => True
  | .nowhere | .behind _ _ => False

/-! ### Steps -/

/-- Either a value of which `P` holds, or a fault with a place. -/
def Meets {α : Type} (P : α → Prop) : Except Fault α → Prop
  | .ok v => P v
  | .error fault => fault.mark.Placed

section Meets

variable {α β : Type} {P : α → Prop} {Q : β → Prop} {x : Except Fault α}

theorem Meets.bind {f : α → Except Fault β} (hx : Meets P x) (hf : ∀ v, P v → Meets Q (f v)) :
    Meets Q (x >>= f) := by
  cases x with
  | error fault => exact hx
  | ok v => exact hf v hx

/-- The fault has a place, and the value the property for another reason. -/
theorem Meets.of_ok {P' : α → Prop} (hx : Meets P' x) (h : ∀ v, x = .ok v → P v) : Meets P x := by
  cases x with
  | error fault => exact hx
  | ok v => exact h v rfl

theorem Meets.placed {fault : Fault} (h : Meets P x) (hx : x = .error fault) : fault.mark.Placed := by
  subst hx
  exact h

theorem Meets.value {v : α} (h : Meets P x) (hx : x = .ok v) : P v := by
  subst hx
  exact h

end Meets

/-- Nothing is asked of a value. -/
abbrev Anything {α : Type} (_ : α) : Prop := True

/-! ### Bytes below 0x80 -/

theorem lt_of_isBlank {b : UInt8} (h : isBlank b = true) : b < 0x80 := by
  simp only [isBlank, Bool.or_eq_true, beq_iff_eq, or_assoc] at h
  rcases h with rfl | rfl | rfl | rfl <;> decide

theorem lt_of_isDigit {b : UInt8} (h : isDigit b = true) : b < 0x80 := by
  simp only [isDigit, Bool.and_eq_true, decide_eq_true_eq] at h
  exact UInt8.lt_of_le_of_lt h.2 (by decide)

theorem valid_skipBlanks {bytes : Bytes} (h : Valid bytes) : Valid (skipBlanks bytes) := by
  induction bytes with
  | nil => exact h
  | cons b bytes ih =>
    by_cases hb : isBlank b = true
    · rw [show skipBlanks (b :: bytes) = skipBlanks bytes from List.dropWhile_cons_of_pos hb]
      exact ih ((valid_cons_iff (lt_of_isBlank hb)).mp h)
    · rw [Bool.not_eq_true] at hb
      rwa [skipBlanks_of_not_blank hb]

theorem valid_of_skipBlanks {bytes rest : Bytes} {b : UInt8} (h : Valid bytes)
    (hb : skipBlanks bytes = b :: rest) : Valid (b :: rest) := by
  rw [← hb]
  exact valid_skipBlanks h

/-- After a byte below 0x80, with which the one at the front has been compared. -/
theorem valid_of_beq {b c : UInt8} {rest : Bytes} (h : Valid (b :: rest)) (hb : (b == c) = true)
    (hc : c < 0x80) : Valid rest := by
  rw [eq_of_beq hb] at h
  exact (valid_cons_iff hc).mp h

/-- The bytes end in one that is a character of its own. -/
def EndsPlain (text : Bytes) : Prop :=
  ∃ xs b, b < 0x80 ∧ text = xs ++ [b]

theorem EndsPlain.valid {text rest : Bytes} (h : EndsPlain text) (hv : Valid (text ++ rest)) :
    Valid rest := by
  rcases h with ⟨xs, b, hb, rfl⟩
  rw [List.append_assoc] at hv
  exact ((valid_append_cons_iff hb).mp hv).2

theorem EndsPlain.append {text : Bytes} (h : EndsPlain text) (front : Bytes) :
    EndsPlain (front ++ text) := by
  rcases h with ⟨xs, b, hb, rfl⟩
  exact ⟨front ++ xs, b, hb, (List.append_assoc ..).symm⟩

theorem endsPlain_singleton {b : UInt8} (h : b < 0x80) : EndsPlain [b] := ⟨[], b, h, rfl⟩

theorem endsPlain_concat {b : UInt8} (h : b < 0x80) (xs : Bytes) : EndsPlain (xs ++ [b]) :=
  ⟨xs, b, h, rfl⟩

theorem Digits.endsPlain {ds : Bytes} (h : Digits ds) : EndsPlain ds := by
  refine ⟨ds.dropLast, ds.getLast h.1, ?_, (List.dropLast_concat_getLast h.1).symm⟩
  exact lt_of_isDigit (h.2 _ (List.getLast_mem h.1))

theorem Whole.endsPlain {whole : Bytes} (h : Whole whole) : EndsPlain whole := by
  cases h with
  | zero => exact endsPlain_singleton (by decide)
  | digits _ hds => exact hds.endsPlain

theorem Magnitude.endsPlain {text : Bytes} (h : Magnitude text) : EndsPlain text := by
  cases h with
  | @parts whole fraction exponent hw hf hx =>
    cases hx with
    | digits _ _ hds => exact (hds.endsPlain.append _).append _
    | none =>
      rw [List.append_nil]
      cases hf with
      | digits hds => exact (hds.endsPlain.append [point]).append whole
      | none =>
        rw [List.append_nil]
        exact hw.endsPlain

theorem endsPlain_restOfNull : EndsPlain restOfNull := endsPlain_concat (by decide) [0x75, 0x6c]

theorem endsPlain_restOfTrue : EndsPlain restOfTrue := endsPlain_concat (by decide) [0x72, 0x75]

theorem endsPlain_restOfFalse : EndsPlain restOfFalse :=
  endsPlain_concat (by decide) [0x61, 0x6c, 0x73]

/-- A value ends in a byte that is a character of its own. -/
theorem endsPlain_of_value {text : Bytes} (h : Value text) : EndsPlain text := by
  cases h with
  | null => exact endsPlain_restOfNull.append [letterN]
  | true => exact endsPlain_restOfTrue.append [letterT]
  | false => exact endsPlain_restOfFalse.append [letterF]
  | positive hm => exact hm.endsPlain
  | negative hm => exact hm.endsPlain.append [minusSign]
  | string => exact endsPlain_concat (by decide) _
  | emptyList => exact endsPlain_concat (by decide) _
  | list => exact endsPlain_concat (by decide) _
  | emptyObject => exact endsPlain_concat (by decide) _
  | object => exact endsPlain_concat (by decide) _

theorem HexDigit.lt_0x80 {b : UInt8} {n : Nat} (h : HexDigit b n) : b < 0x80 := by
  have hlt : ∀ n < 0x80, UInt8.ofNat n < 0x80 := by decide
  cases h with
  | decimal hn => exact hlt _ (by omega)
  | lower hn => exact hlt _ (by omega)
  | upper hn => exact hlt _ (by omega)

theorem HexUnit.endsPlain {digits : Bytes} {n : Nat} (h : HexUnit digits n) : EndsPlain digits := by
  cases h with
  | @digits a b c d _ _ _ _ _ _ _ hd => exact endsPlain_concat hd.lt_0x80 [a, b, c]

theorem Escape.endsPlain {c : Char} {text : Bytes} (h : Escape c text) : EndsPlain text := by
  cases h with
  | short hc =>
    have hall : ∀ p ∈ shortEscapes, p.1 < 0x80 := by decide
    exact endsPlain_singleton (hall _ hc)
  | units hu =>
    cases hu with
    | unit hd => exact hd.endsPlain.append [letterU]
    | @pair high low _ _ _ hd =>
      have h := hd.endsPlain.append (letterU :: high ++ [backslash, letterU])
      rwa [List.append_assoc] at h

/-! ### Words and numbers -/

theorem placed_readLetters (letters bytes : Bytes) :
    Meets Anything (readLetters .closed letters bytes) := by
  induction letters generalizing bytes with
  | nil => exact trivial
  | cons letter letters ih =>
    cases bytes with
    | nil => exact trivial
    | cons b bytes =>
      rw [readLetters]
      split
      · exact ih bytes
      · exact trivial

theorem meets_readLetters {letters bytes : Bytes} (hl : EndsPlain letters) (h : Valid bytes) :
    Meets Valid (readLetters .closed letters bytes) := by
  refine (placed_readLetters letters bytes).of_ok fun rest hrest => ?_
  rw [readLetters_eq_ok_iff.mp hrest] at h
  exact hl.valid h

theorem placed_missingDigit (atEnd : Cause) (bytes : Bytes) :
    (missingDigit .closed atEnd bytes).mark.Placed := by
  cases bytes <;> exact trivial

theorem placed_readNumeral (atEnd : Cause) (bytes : Bytes) :
    Meets Anything (readNumeral .closed atEnd bytes) := by
  have hwhole : ∀ bytes, Meets Anything (readWhole .closed atEnd bytes) := by
    intro bytes
    rw [readWhole.eq_def]
    split
    · exact trivial
    · split
      · split
        · split <;> exact trivial
        · exact trivial
      · split <;> exact trivial
  have hfraction : ∀ bytes, Meets Anything (readFraction .closed atEnd bytes) := by
    intro bytes
    rw [readFraction.eq_def]
    split
    · split
      · dsimp only
        split
        · exact placed_missingDigit atEnd _
        · exact trivial
      · exact trivial
    · exact trivial
  have hexponent : ∀ bytes, Meets Anything (readExponent .closed atEnd bytes) := by
    intro bytes
    rw [readExponent.eq_def]
    split
    · split
      · split
        · exact trivial
        · split <;> exact trivial
      · exact trivial
    · exact trivial
  refine (hwhole bytes).bind fun w _ => ?_
  refine (hfraction w.2).bind fun f _ => ?_
  exact (hexponent f.2).bind fun x _ => trivial

theorem placed_skipNumber (bytes : Bytes) : Meets Anything (skipNumber .closed bytes) := by
  refine (placed_readNumeral .invalidNumber bytes).bind fun n _ => ?_
  exact trivial

theorem placed_elim {α : Type} (value : Option α) {fault : Fault} (h : fault.mark.Placed) :
    Meets Anything (value.elim (.error fault) .ok : Except Fault α) := by
  cases value with
  | none => exact h
  | some v => exact trivial

theorem placed_found (n : Numeral) (negative : Bool) (rest : Bytes) :
    Meets Anything (n.found .closed negative rest) := by
  rw [Numeral.found]
  split
  · exact trivial
  · exact placed_elim _ trivial

theorem placed_readNumber (negative : Bool) (bytes : Bytes) :
    Meets Anything (readNumber .closed negative bytes) := by
  refine (placed_readNumeral (.ended .value) bytes).bind fun n _ => ?_
  exact (placed_found n.1 negative n.2).bind fun _ _ => trivial

/-! ### Strings -/

theorem placed_readCodeUnit (bytes : Bytes) : Meets Anything (readCodeUnit .closed bytes) := by
  rw [readCodeUnit.eq_def]
  split
  · split <;> exact trivial
  · exact trivial

theorem placed_continueEscape (expected : UInt8) (bytes : Bytes) :
    Meets Anything (continueEscape .closed expected bytes) := by
  rw [continueEscape.eq_def]
  split
  · exact trivial
  · split <;> exact trivial

theorem placed_readUnitEscape (bytes : Bytes) : Meets Anything (readUnitEscape .closed bytes) := by
  refine (placed_readCodeUnit bytes).bind fun unit _ => ?_
  dsimp only
  split
  · exact trivial
  · split
    · refine (placed_continueEscape backslash unit.2).bind fun rest₁ _ => ?_
      refine (placed_continueEscape letterU rest₁).bind fun rest₂ _ => ?_
      refine (placed_readCodeUnit rest₂).bind fun trailing _ => ?_
      split <;> exact trivial
    · exact trivial

theorem placed_readEscape (bytes : Bytes) : Meets Anything (readEscape .closed bytes) := by
  rw [readEscape.eq_def]
  split
  · exact trivial
  · split
    · exact trivial
    · split
      · exact placed_readUnitEscape _
      · exact trivial

theorem placed_skipEscape (bytes : Bytes) : Meets Anything (skipEscape .closed bytes) := by
  rw [skipEscape.eq_def]
  split
  · exact trivial
  · split
    · exact trivial
    · split
      · exact (placed_readCodeUnit _).bind fun _ _ => trivial
      · exact trivial

theorem placed_readTextBytes (done bytes : Bytes) :
    Meets Anything (readTextBytes .closed done bytes) := by
  generalize he : Ending.closed = e
  fun_induction readTextBytes e done bytes with
  | case1 | case2 | case5 =>
    subst he
    exact trivial
  | case3 done b rest _ _ fault h =>
    subst he
    exact (placed_readEscape rest).placed h
  | case4 _ _ _ _ _ _ _ _ ih => exact ih
  | case6 _ _ _ _ _ _ ih => exact ih

/-- What is decoded from valid bytes is valid.  In front of it stand bytes of a character that has
begun. -/
theorem Decodes.valid {decoded body : Bytes} (h : Decodes decoded body) {front : Bytes}
    (hv : Valid (front ++ body)) : Valid (front ++ decoded) := by
  induction h generalizing front with
  | nil => exact hv
  | @byte b decoded more _ _ ih =>
    rw [List.append_cons] at hv ⊢
    exact ih hv
  | @escape c text decoded more hesc _ ih =>
    -- the character that had begun is complete in front of a backslash
    rw [List.cons_append] at hv
    rcases (valid_append_cons_iff (show backslash < 0x80 by decide)).mp hv with ⟨hfront, hrest⟩
    have hmore : Valid more := hesc.endsPlain.valid hrest
    exact hfront.append ((valid_encodeChar c).append (@ih [] hmore))

theorem meets_readText {bytes : Bytes} (h : Valid bytes) :
    Meets (fun read => Valid read.2) (readText .closed bytes) := by
  have hbytes : Meets (fun read => Valid read.1 ∧ Valid read.2) (readTextBytes .closed [] bytes) := by
    refine (placed_readTextBytes [] bytes).of_ok fun read hread => ?_
    rcases readTextBytes_eq_ok_iff.mp hread with ⟨more, body, hmore, hdecoded, rfl⟩
    rcases (valid_append_cons_iff (show quote < 0x80 by decide)).mp h with ⟨hbody, hrest⟩
    rw [hdecoded]
    exact ⟨@Decodes.valid _ _ hmore [] hbody, hrest⟩
  refine hbytes.bind fun read hread => ?_
  rcases hread.1.decode? with ⟨s, hs⟩
  simp only [hs]
  exact hread.2

theorem placed_skipText (bytes : Bytes) : Meets Anything (skipText .closed bytes) := by
  generalize he : Ending.closed = e
  fun_induction skipText e bytes with
  | case1 | case2 | case5 =>
    subst he
    exact trivial
  | case3 b rest _ _ fault h =>
    subst he
    exact (placed_skipEscape rest).placed h
  | case4 _ _ _ _ _ _ ih => exact ih
  | case6 _ _ _ _ _ ih => exact ih

/-! ### Values that are passed over -/

theorem placed_readColon (bytes : Bytes) : Meets Anything (readColon .closed bytes) := by
  rw [readColon]
  split
  · exact trivial
  · split <;> exact trivial

theorem meets_readColon {bytes : Bytes} (h : Valid bytes) :
    Meets Valid (readColon .closed bytes) := by
  refine (placed_readColon bytes).of_ok fun rest hrest => ?_
  rcases readColon_eq_ok_iff.mp hrest with ⟨gap, -, rfl⟩
  exact ((valid_append_cons_iff (by decide)).mp h).2


theorem placed_skipKey (bytes : Bytes) : Meets Anything (skipKey .closed bytes) := by
  rw [skipKey]
  split
  · exact trivial
  · split
    · exact (placed_skipText _).bind fun rest _ => placed_readColon rest
    · exact trivial

theorem placed_toValue (frame : Frame) (bytes : Bytes) :
    Meets Anything (frame.toValue .closed bytes) := by
  cases frame with
  | list => exact trivial
  | object => exact placed_skipKey bytes

theorem placed_enter (frame : Frame) (bytes : Bytes) :
    Meets Anything (frame.enter .closed bytes) := by
  rw [Frame.enter]
  split
  · exact trivial
  · split
    · exact trivial
    · exact (placed_toValue frame _).bind fun _ _ => trivial

theorem placed_advance (frame : Frame) (bytes : Bytes) :
    Meets Anything (frame.advance .closed bytes) := by
  rw [Frame.advance]
  split
  · exact trivial
  · split
    · exact (placed_toValue frame _).bind fun _ _ => trivial
    · split <;> exact trivial

theorem placed_skipScalar (b : UInt8) (bytes : Bytes) :
    Meets Anything (skipScalar .closed b bytes) := by
  rw [skipScalar]
  split
  · exact placed_readLetters _ _
  split
  · exact placed_readLetters _ _
  split
  · exact placed_readLetters _ _
  split
  · exact placed_skipNumber _
  split
  · exact placed_skipNumber _
  split
  · exact placed_skipText _
  · exact trivial

theorem placed_skipFrames (stage : Stage) (frames : List Frame) (bytes : Bytes) :
    Meets Anything (skipFrames .closed stage frames bytes) := by
  generalize he : Ending.closed = e
  fun_induction skipFrames e stage frames bytes with
  | case1 | case7 =>
    subst he
    exact trivial
  | case2 frames bytes b rest _ frame _ fault h =>
    subst he
    exact (placed_enter frame rest).placed h
  | case3 _ _ _ _ _ _ _ _ _ ih => exact ih
  | case4 _ _ _ _ _ _ _ _ _ ih => exact ih
  | case5 frames bytes b rest _ _ fault h =>
    subst he
    exact (placed_skipScalar b rest).placed h
  | case6 _ _ _ _ _ _ _ _ ih => exact ih
  | case8 bytes frame frames fault h =>
    subst he
    exact (placed_advance frame bytes).placed h
  | case9 _ _ _ _ _ ih => exact ih
  | case10 _ _ _ _ _ ih => exact ih

theorem meets_skipValue {bytes : Bytes} (h : Valid bytes) :
    Meets Valid (skipValue .closed bytes) := by
  refine (placed_skipFrames .value [] bytes).of_ok fun rest hrest => ?_
  rcases exists_value_of_skipValue hrest with ⟨gap, text, -, ht, rfl⟩
  exact ((endsPlain_of_value ht).append gap).valid h

end BuildFleet.Json
