import BuildFleet.Json.Sequence
import BuildFleet.Proofs.Json.Skipping

/-!
# JSON — what readers read

A reader *reads* a way of spelling (`Reader.Reads`) if it takes exactly the spellings of a value off
the front of the bytes, with the blanks before them, and gives that value.

* `string_reads`, `boolean_reads`, `optional_reads`, `list_reads`: the readers of strings, truth
  values, optional values and lists, each from the readers of its parts.
* `Reader.Reads.parse_ofBytes_eq_ok_iff`: a whole input is parsed if it is a spelling with blanks
  around it.
-/

namespace BuildFleet.Json

theorem readValue_eq_ok_iff {α : Type} {e : Ending} {bytes rest : Bytes} {v : α}
    {read : UInt8 → Bytes → Except Fault (α × Bytes)} :
    readValue e bytes read = .ok (v, rest) ↔ ∃ gap b tail, Blanks gap ∧ isBlank b = false ∧
      bytes = gap ++ b :: tail ∧ read b tail = .ok (v, rest) := by
  refine ⟨?_, ?_⟩
  · intro h
    rw [readValue] at h
    split at h
    · cases h
    · rename_i b tail hb
      obtain ⟨hblank, gap, hg, rfl⟩ := skipBlanks_eq_cons_iff.mp hb
      exact ⟨gap, b, tail, hg, hblank, rfl, h⟩
  · rintro ⟨gap, b, tail, hg, hb, rfl, h⟩
    rw [readValue, skipBlanks_gap hg hb]
    exact h

/-- The reader takes exactly these spellings off the front. -/
structure Reader.Reads {α : Type} (r : Reader α) (Spells : α → Bytes → Prop) : Prop where
  read_iff : ∀ {e bytes v rest}, r.read e bytes = .ok (v, rest) ↔
    ∃ gap text, Blanks gap ∧ Spells v text ∧ bytes = gap ++ text ++ rest
  /-- A spelling begins with a byte that is no blank and does not end a list. -/
  starts : ∀ {v text}, Spells v text →
    ∃ b more, text = b :: more ∧ isBlank b = false ∧ b ≠ closeBracket

namespace Reader

variable {α β : Type} {r : Reader α} {Spells : α → Bytes → Prop}

/-- A reader that decides by the first byte. -/
theorem reads_of_readValue {read : Ending → UInt8 → Bytes → Except Fault (α × Bytes)}
    (hr : ∀ e bytes, r.read e bytes = readValue e bytes (read e))
    (hread : ∀ {e b tail v rest}, isBlank b = false →
      (read e b tail = .ok (v, rest) ↔ ∃ text, Spells v (b :: text) ∧ tail = text ++ rest))
    (hstarts : ∀ {v text}, Spells v text →
      ∃ b more, text = b :: more ∧ isBlank b = false ∧ b ≠ closeBracket) : r.Reads Spells where
  starts := hstarts
  read_iff := by
    intro e bytes v rest
    rw [hr, readValue_eq_ok_iff]
    refine ⟨?_, ?_⟩
    · rintro ⟨gap, b, tail, hg, hb, rfl, h⟩
      obtain ⟨text, ht, rfl⟩ := (hread hb).mp h
      exact ⟨gap, b :: text, hg, ht, by simp⟩
    · rintro ⟨gap, text, hg, ht, rfl⟩
      obtain ⟨b, more, rfl, hb, -⟩ := hstarts ht
      exact ⟨gap, b, more ++ rest, hg, hb, by simp, (hread hb).mpr ⟨more, ht, rfl⟩⟩

theorem Reads.map (h : r.Reads Spells) (f : α → β) :
    (r.map f).Reads fun w text => ∃ v, Spells v text ∧ f v = w where
  starts := by
    rintro w text ⟨v, ht, -⟩
    exact h.starts ht
  read_iff := by
    intro e bytes w rest
    refine ⟨?_, ?_⟩
    · intro hread
      obtain ⟨⟨v, rest'⟩, hr, heq⟩ := bind_eq_ok.mp hread
      cases heq
      obtain ⟨gap, text, hg, ht, rfl⟩ := h.read_iff.mp hr
      exact ⟨gap, text, hg, ⟨v, ht, rfl⟩, rfl⟩
    · rintro ⟨gap, text, hg, ⟨v, ht, rfl⟩, rfl⟩
      exact bind_eq_ok.mpr ⟨_, h.read_iff.mpr ⟨gap, text, hg, ht, rfl⟩, rfl⟩

/-- The same spellings, said in another way. -/
theorem Reads.congr {Spells' : α → Bytes → Prop} (h : r.Reads Spells)
    (heq : ∀ v text, Spells v text ↔ Spells' v text) : r.Reads Spells' := by
  have hs : Spells = Spells' := by
    funext v text
    exact propext (heq v text)
  rwa [← hs]

/-! ### Values without parts -/

theorem string_reads : string.Reads StringLiteral := by
  refine reads_of_readValue (fun _ _ => rfl) ?_ ?_
  · intro e b tail s rest _
    split
    · rename_i hb
      obtain rfl := eq_of_beq hb
      rw [readText_eq_ok_iff]
      refine ⟨?_, ?_⟩
      · rintro ⟨body, hbody, rfl⟩
        exact ⟨body ++ [quote], .quoted hbody, by simp⟩
      · rintro ⟨text, ht, rfl⟩
        cases ht with
        | @quoted body hbody => exact ⟨body, hbody, List.append_assoc body [quote] rest⟩
    · rename_i hb
      refine iff_of_false (fun h => (by cases h)) ?_
      rintro ⟨text, ht, -⟩
      cases ht
      exact absurd rfl hb
  · intro s text ht
    cases ht
    exact ⟨quote, _, rfl, rfl, by decide⟩

theorem boolean_reads : boolean.Reads BooleanLiteral := by
  refine reads_of_readValue (fun _ _ => rfl) ?_ ?_
  · intro e b tail v rest _
    refine ⟨?_, ?_⟩
    · intro h
      split at h
      · rename_i hb
        obtain rfl := eq_of_beq hb
        obtain ⟨rest₁, h₁, h₂⟩ := bind_eq_ok.mp h
        cases h₂
        exact ⟨restOfTrue, .yes, readLetters_eq_ok_iff.mp h₁⟩
      · split at h
        · rename_i hb
          obtain rfl := eq_of_beq hb
          obtain ⟨rest₁, h₁, h₂⟩ := bind_eq_ok.mp h
          cases h₂
          exact ⟨restOfFalse, .no, readLetters_eq_ok_iff.mp h₁⟩
        · cases h
    · rintro ⟨text, ht, rfl⟩
      cases ht with
      | yes => exact bind_eq_ok.mpr ⟨rest, readLetters_eq_ok_iff.mpr rfl, rfl⟩
      | no => exact bind_eq_ok.mpr ⟨rest, readLetters_eq_ok_iff.mpr rfl, rfl⟩
  · intro v text ht
    cases ht with
    | yes => exact ⟨letterT, _, rfl, rfl, by decide⟩
    | no => exact ⟨letterF, _, rfl, rfl, by decide⟩

/-- `null` is told from other values by its first letter, which none of them may have. -/
theorem optional_reads (h : r.Reads Spells) (hn : ∀ v more, ¬ Spells v (letterN :: more)) :
    r.optional.Reads (OrNull Spells) where
  starts := by
    intro v text ht
    cases ht with
    | null => exact ⟨letterN, _, rfl, rfl, by decide⟩
    | value ht => exact h.starts ht
  read_iff := by
    intro e bytes v rest
    refine ⟨?_, ?_⟩
    · intro hread
      dsimp only [optional] at hread
      split at hread
      · cases hread
      · rename_i b tail hb
        obtain ⟨hblank, gap, hg, rfl⟩ := skipBlanks_eq_cons_iff.mp hb
        split at hread
        · rename_i hl
          obtain rfl := eq_of_beq hl
          obtain ⟨rest₁, h₁, h₂⟩ := bind_eq_ok.mp hread
          cases h₂
          refine ⟨gap, nullWord, hg, .null, ?_⟩
          rw [readLetters_eq_ok_iff.mp h₁, nullWord]
          simp
        · obtain ⟨⟨v', rest₁⟩, h₁, h₂⟩ := bind_eq_ok.mp hread
          cases h₂
          obtain ⟨gap', text, hg', ht, heq⟩ := h.read_iff.mp h₁
          exact ⟨gap ++ gap', text, hg.append hg', .value ht, by rw [heq]; simp⟩
    · rintro ⟨gap, text, hg, ht, rfl⟩
      cases ht with
      | null =>
        dsimp only [optional]
        rw [List.append_assoc, nullWord, List.cons_append, skipBlanks_gap hg rfl]
        exact bind_eq_ok.mpr ⟨rest, readLetters_eq_ok_iff.mpr rfl, rfl⟩
      | @value v text ht =>
        obtain ⟨b, more, rfl, hb, -⟩ := h.starts ht
        have hl : (b == letterN) = false := by
          refine beq_eq_false_iff_ne.mpr ?_
          rintro rfl
          exact hn v more ht
        have hr : r.read e (b :: (more ++ rest)) = .ok (v, rest) :=
          h.read_iff.mpr ⟨[], b :: more, blanks_nil, ht, rfl⟩
        dsimp only [optional]
        rw [List.append_assoc, List.cons_append, skipBlanks_gap hg hb]
        simp only [hl, Bool.false_eq_true, if_false]
        exact bind_eq_ok.mpr ⟨_, hr, rfl⟩

/-! ### Whole inputs -/

/-- All bytes are read if a value is, and nothing but blanks follows. -/
theorem readAll_eq_ok_iff {bytes : Bytes} {v : α} :
    r.readAll .closed bytes = .ok v ↔ ∃ b tail rest, skipBlanks bytes = b :: tail ∧
      r.read .closed (b :: tail) = .ok (v, rest) ∧ Blanks rest := by
  rw [readAll]
  refine ⟨fun h => ?_, ?_⟩
  · split at h
    · cases h
    · rename_i b tail hb
      obtain ⟨⟨w, rest⟩, hread, hend⟩ := bind_eq_ok.mp h
      dsimp only at hend
      split at hend
      · rename_i hrest
        cases hend
        exact ⟨b, tail, rest, hb, hread, skipBlanks_eq_nil_iff.mp hrest⟩
      · cases hend
      · cases hend
  · rintro ⟨b, tail, rest, hb, hread, hrest⟩
    rw [hb]
    refine bind_eq_ok.mpr ⟨_, hread, ?_⟩
    simp [skipBlanks_eq_nil_iff.mpr hrest]

theorem Reads.readAll_eq_ok_iff (h : r.Reads Spells) {bytes : Bytes} {v : α} :
    r.readAll .closed bytes = .ok v ↔ ∃ before text after, Blanks before ∧ Spells v text ∧
      Blanks after ∧ bytes = before ++ text ++ after := by
  rw [Reader.readAll_eq_ok_iff]
  refine ⟨?_, ?_⟩
  · rintro ⟨b, tail, rest, hb, hr, hrest⟩
    obtain ⟨-, gap, hg, rfl⟩ := skipBlanks_eq_cons_iff.mp hb
    obtain ⟨gap', text, hg', ht, heq⟩ := h.read_iff.mp hr
    refine ⟨gap ++ gap', text, rest, hg.append hg', ht, hrest, ?_⟩
    rw [heq]
    simp
  · rintro ⟨before, text, after, hbefore, ht, hafter, rfl⟩
    obtain ⟨b, more, rfl, hb, -⟩ := h.starts ht
    refine ⟨b, more ++ after, after, ?_, ?_, hafter⟩
    · rw [List.append_assoc, List.cons_append, skipBlanks_gap hbefore hb]
    · exact h.read_iff.mpr ⟨[], b :: more, blanks_nil, ht, rfl⟩

/-- A stream that ends is parsed if it is a spelling, with blanks around it. -/
theorem Reads.parse_ofBytes_eq_ok_iff (h : r.Reads Spells) {bytes : Bytes} {v : α} :
    r.parse (.ofBytes bytes) = .ok v ↔ ∃ before text after, Blanks before ∧ Spells v text ∧
      Blanks after ∧ bytes = before ++ text ++ after :=
  parse_eq_ok_iff.trans h.readAll_eq_ok_iff

end Reader

end BuildFleet.Json
