import BuildFleet.Proofs.Json.Skipping

/-!
# JSON — reading from front to back

Bytes that are read may be cut off before their end.  A reading that takes a value from the whole
of them goes the same way on what is kept, up to the cut.  If it has not come to the end of the value
by then, it finds that the bytes end too early.

There is one exception.  What is left of a number may be a number too, and of a number nobody asks for
all is passed over.  So a cut inside a number may be found out only behind it, or be taken for a number
that is wrong.  This happens only where any other value could stand in its place (`CutInNumber`).

* `TooShort`: what may be wrong with bytes that have been cut off.
* `Forward`: a step goes from front to back: what it has read stays the same whatever value follows in
  place of a number, and bytes that are cut off are too short for it.
* `Forward.bind`: so does a chain of two steps if both do.
-/

namespace BuildFleet.Json

/-! ### Numbers and what may stand for them -/

/-- A number, with its minus. -/
inductive Number : Bytes → Prop where
  | positive {text : Bytes} : Magnitude text → Number text
  | negative {text : Bytes} : Magnitude text → Number (minusSign :: text)

theorem Number.value {text : Bytes} (h : Number text) : Value text := by
  cases h with
  | positive h => exact .positive h
  | negative h => exact .negative h

/-- The bytes that begin a number. -/
def BeginsNumber (b : UInt8) : Prop :=
  isDigit b = true ∨ b = minusSign

theorem Number.exists_cons {text : Bytes} (h : Number text) :
    ∃ b more, text = b :: more ∧ BeginsNumber b := by
  cases h with
  | positive h =>
    obtain ⟨d, more, rfl, hd⟩ := h.exists_cons
    exact ⟨d, more, rfl, .inl hd⟩
  | negative h => exact ⟨minusSign, _, rfl, .inr rfl⟩

/-- The same bytes, but with a value in place of a number. -/
inductive Replaced (bytes bytes' : Bytes) : Prop where
  | value {front number text back : Bytes} : Number number → Value text →
      bytes = front ++ number ++ back → bytes' = front ++ text ++ back → Replaced bytes bytes'

theorem Replaced.append {bytes bytes' : Bytes} (h : Replaced bytes bytes') (used : Bytes) :
    Replaced (used ++ bytes) (used ++ bytes') := by
  cases h with
  | @value front number text back hn hv h h' =>
    refine @Replaced.value _ _ (used ++ front) number text back hn hv ?_ ?_
    · rw [h]
      simp
    · rw [h']
      simp

/-- The first byte stays the same, or it begins a number, and then a value. -/
theorem Replaced.exists_cons {b : UInt8} {rest bytes' : Bytes} (h : Replaced (b :: rest) bytes') :
    ∃ c rest', bytes' = c :: rest' ∧
      (c = b ∨ BeginsNumber b ∧ isBlank c = false ∧ c ≠ closeBracket) := by
  cases h with
  | @value front number text back hn hv h h' =>
    cases front with
    | cons a front =>
      obtain ⟨rfl, -⟩ := List.cons.inj h
      exact ⟨b, _, h', .inl rfl⟩
    | nil =>
      obtain ⟨d, more, rfl, hd⟩ := hn.exists_cons
      obtain ⟨c, more', rfl, hblank, hc⟩ := exists_cons_of_value hv
      obtain ⟨rfl, -⟩ := List.cons.inj h
      exact ⟨c, _, h', .inr ⟨hd, hblank, hc⟩⟩

/-- The cut is inside a number in whose place any value makes the same of the whole. -/
inductive CutInNumber (Same : Bytes → Prop) (kept lost : Bytes) : Prop where
  | inside {front head tail back : Bytes} : Number (head ++ tail) → head ≠ [] → tail ≠ [] →
      kept = front ++ head → lost = tail ++ back →
      (∀ text, Value text → Same (front ++ text ++ back)) → CutInNumber Same kept lost

/-- What has been read before stands in front. -/
theorem CutInNumber.append {Same Same' : Bytes → Prop} {kept lost : Bytes} (used : Bytes)
    (h : CutInNumber Same kept lost)
    (hs : ∀ bytes, Replaced (kept ++ lost) bytes → Same bytes → Same' (used ++ bytes)) :
    CutInNumber Same' (used ++ kept) lost := by
  cases h with
  | @inside front head tail back hn hh ht hkept hlost hsame =>
    refine @CutInNumber.inside _ _ _ (used ++ front) head tail back hn hh ht ?_ hlost fun text hv => ?_
    · rw [hkept]
      simp
    · have hr : Replaced (kept ++ lost) (front ++ text ++ back) :=
        .value hn hv (by rw [hkept, hlost]; simp) rfl
      have hused := hs _ hr (hsame text hv)
      rwa [← List.append_assoc, ← List.append_assoc] at hused

/-! ### Bytes that have been cut off -/

/-- What may be wrong with bytes that have been cut off. -/
inductive TooShort (Same : Bytes → Prop) (kept lost : Bytes) : Cause → Prop where
  | ended (inside : Construct) : TooShort Same kept lost (.ended inside)
  | number : CutInNumber Same kept lost → TooShort Same kept lost .invalidNumber

theorem TooShort.append {Same Same' : Bytes → Prop} {kept lost : Bytes} {cause : Cause} (used : Bytes)
    (h : TooShort Same kept lost cause)
    (hs : ∀ bytes, Replaced (kept ++ lost) bytes → Same bytes → Same' (used ++ bytes)) :
    TooShort Same' (used ++ kept) lost cause := by
  cases h with
  | ended inside => exact .ended inside
  | number h => exact .number (h.append used hs)

/-- The bytes end inside something. -/
def EndsEarly {ρ : Type} (x : Except Fault ρ) : Prop :=
  ∃ inside mark, x = .error ⟨.ended inside, mark⟩

theorem endsEarly_closed {ρ : Type} (inside : Construct) :
    EndsEarly (ρ := ρ) (.error (Ending.closed.fault (.ended inside))) :=
  ⟨inside, _, rfl⟩

theorem EndsEarly.bind {ρ ρ' : Type} {x : Except Fault ρ} (h : EndsEarly x)
    (f : ρ → Except Fault ρ') : EndsEarly (x >>= f) := by
  obtain ⟨inside, mark, rfl⟩ := h
  exact ⟨inside, mark, rfl⟩

variable {β γ : Type} {f g : Bytes → Except Fault (β × Bytes)} {bytes : Bytes}

/-- What a step makes of `kept` if it takes `v` from the whole and leaves `rest`: the same if the cut
is in the rest, and otherwise it finds them too short. -/
inductive AtCut (f : Bytes → Except Fault (β × Bytes)) (kept lost : Bytes) (v : β) (rest : Bytes) :
    Except Fault (β × Bytes) → Prop where
  | past {rest' : Bytes} : rest = rest' ++ lost → AtCut f kept lost v rest (.ok (v, rest'))
  | short {fault : Fault} : TooShort (f · = .ok (v, rest)) kept lost fault.cause →
      AtCut f kept lost v rest (.error fault)

theorem EndsEarly.atCut {x : Except Fault (β × Bytes)} (h : EndsEarly x) {kept lost rest : Bytes}
    {v : β} : AtCut f kept lost v rest x := by
  obtain ⟨inside, mark, rfl⟩ := h
  exact .short (.ended inside)

theorem AtCut.append {kept lost rest used : Bytes} {v : β} {x : Except Fault (β × Bytes)}
    (h : AtCut g kept lost v rest x)
    (hs : ∀ bytes, g bytes = .ok (v, rest) → f (used ++ bytes) = .ok (v, rest)) :
    AtCut f (used ++ kept) lost v rest x := by
  cases h with
  | past h => exact .past h
  | short h => exact .short (h.append used fun bytes _ => hs bytes)

/-- The step goes through the bytes from front to back. -/
structure Forward (f : Bytes → Except Fault (β × Bytes)) (bytes : Bytes) : Prop where
  stable : ∀ {v rest}, f bytes = .ok (v, rest) →
    ∃ used, bytes = used ++ rest ∧ ∀ rest', Replaced rest rest' → f (used ++ rest') = .ok (v, rest')
  cut : ∀ {kept lost v rest}, bytes = kept ++ lost → f bytes = .ok (v, rest) →
    AtCut f kept lost v rest (f kept)

namespace Forward

theorem of_error {fault : Fault} (h : f bytes = .error fault) : Forward f bytes where
  stable hv := by
    rw [h] at hv
    cases hv
  cut _ hv := by
    rw [h] at hv
    cases hv

theorem of_endsEarly (h : EndsEarly (f bytes)) : Forward f bytes := by
  obtain ⟨inside, mark, h⟩ := h
  exact of_error h

theorem error (fault : Bytes → Fault) (bytes : Bytes) :
    Forward (fun rest => (.error (fault rest) : Except Fault (β × Bytes))) bytes :=
  of_error rfl

/-- Nothing is read. -/
theorem ok (v : β) (bytes : Bytes) : Forward (fun rest => .ok (v, rest)) bytes where
  stable h := by
    cases h
    exact ⟨[], rfl, fun _ _ => rfl⟩
  cut hbytes h := by
    cases h
    exact .past hbytes

theorem congr (h : ∀ bytes, f bytes = g bytes) (hg : Forward g bytes) : Forward f bytes := by
  obtain rfl := funext h
  exact hg

theorem ite {c : Prop} [Decidable c] (hf : c → Forward f bytes) (hg : ¬ c → Forward g bytes) :
    Forward (fun rest => if c then f rest else g rest) bytes := by
  by_cases hc : c
  · simpa only [if_pos hc] using hf hc
  · simpa only [if_neg hc] using hg hc

/-! ### One step after the other -/

/-- Bytes are taken that are always the same, and then another step follows. -/
theorem of_used {used : Bytes} (hf : ∀ rest, f (used ++ rest) = g rest)
    (hshort : ∀ kept lost, used = kept ++ lost → lost ≠ [] → EndsEarly (f kept))
    (hg : Forward g bytes) : Forward f (used ++ bytes) where
  stable := by
    intro v rest h
    rw [hf] at h
    obtain ⟨more, rfl, hmore⟩ := hg.stable h
    refine ⟨used ++ more, by simp, fun rest' hr => ?_⟩
    rw [List.append_assoc, hf]
    exact hmore rest' hr
  cut := by
    intro kept lost v rest hbytes h
    rw [hf] at h
    have hpast : ∀ kept', kept = used ++ kept' → bytes = kept' ++ lost →
        AtCut f kept lost v rest (f kept) := by
      rintro kept' rfl hrest
      rw [hf]
      exact (hg.cut hrest h).append fun bytes hb => (hf bytes).trans hb
    rcases List.append_eq_append_iff.mp hbytes with ⟨kept', hkept, hrest⟩ | ⟨lost', hused, hlost⟩
    · exact hpast kept' hkept hrest
    · by_cases hne : lost' = []
      · subst hne
        exact hpast [] (by simpa using hused.symm) (by simpa using hlost.symm)
      · exact (hshort kept lost' hused hne).atCut

/-- The first byte decides how it goes on. -/
theorem cons (hnil : EndsEarly (f []))
    (hcons : ∀ b rest, bytes = b :: rest → Forward (fun rest => f (b :: rest)) rest) :
    Forward f bytes := by
  cases bytes with
  | nil => exact of_endsEarly hnil
  | cons b rest =>
    refine @of_used _ _ _ _ [b] (fun _ => rfl) ?_ (hcons b rest rfl)
    intro kept lost hused hlost
    have hkept : kept = [] := by
      cases kept with
      | nil => rfl
      | cons a kept =>
        have hnone : [] = kept ++ lost := (List.cons.inj hused).2
        exact absurd (List.append_eq_nil_iff.mp hnone.symm).2 hlost
    rw [hkept]
    exact hnil

/-- The blanks and the byte behind them are taken. -/
theorem gap {b : UInt8} {rest : Bytes} (hb : skipBlanks bytes = b :: rest)
    (hnil : ∀ bytes, skipBlanks bytes = [] → EndsEarly (f bytes))
    (hcons : ∀ bytes rest, skipBlanks bytes = b :: rest → f bytes = g rest)
    (hg : Forward g rest) : Forward f bytes := by
  obtain ⟨hblank, gap, hgap, rfl⟩ := skipBlanks_eq_cons_iff.mp hb
  have happend : gap ++ b :: rest = (gap ++ [b]) ++ rest := by simp
  rw [happend]
  refine of_used (fun rest' => ?_) ?_ hg
  · refine hcons _ rest' ?_
    simpa using skipBlanks_gap hgap hblank rest'
  · -- what is kept of the blanks and the byte behind them are blanks
    intro kept lost hused hlost
    have hkept : gap = kept ++ lost.dropLast := by
      rw [← List.dropLast_append_of_ne_nil hlost, ← hused, List.dropLast_concat]
    rw [hkept, blanks_append_iff] at hgap
    exact hnil kept (skipBlanks_eq_nil_iff.mpr hgap.1)

/-- The first byte after the blanks decides how it goes on. -/
theorem blanks (k : UInt8 → Bytes → Except Fault (β × Bytes))
    (hnil : ∀ bytes, skipBlanks bytes = [] → EndsEarly (f bytes))
    (hcons : ∀ bytes b rest, skipBlanks bytes = b :: rest → f bytes = k b rest)
    (hk : ∀ b rest, skipBlanks bytes = b :: rest → Forward (k b) rest) : Forward f bytes := by
  cases hb : skipBlanks bytes with
  | nil => exact of_endsEarly (hnil bytes hb)
  | cons b rest => exact gap hb hnil (fun bytes rest h => hcons bytes b rest h) (hk b rest hb)

/-- The byte behind the blanks is looked at, and left where it is.  Where it begins a number, any that
begins a value may be in its place. -/
theorem peek {v : β} {b : UInt8} {rest : Bytes} (p : UInt8 → Prop)
    (hb : skipBlanks bytes = b :: rest) (hpb : p b)
    (hp : ∀ c, BeginsNumber b → c ≠ closeBracket → p c)
    (hnil : ∀ bytes, skipBlanks bytes = [] → EndsEarly (f bytes))
    (hcons : ∀ bytes c rest, skipBlanks bytes = c :: rest → p c → f bytes = .ok (v, c :: rest)) :
    Forward f bytes := by
  have hread := hcons bytes b rest hb hpb
  obtain ⟨hblank, gap, hg, rfl⟩ := skipBlanks_eq_cons_iff.mp hb
  refine ⟨fun h => ?_, fun hkept h => ?_⟩
  · rw [hread] at h
    cases h
    refine ⟨gap, rfl, fun rest' hr => ?_⟩
    obtain ⟨c, more, rfl, hc⟩ := hr.exists_cons
    -- the byte is the same, or it began a number, and any other value may stand there
    rcases hc with rfl | ⟨hn, hcblank, hc⟩
    · exact hcons _ _ _ (skipBlanks_gap hg hblank more) hpb
    · exact hcons _ _ _ (skipBlanks_gap hg hcblank more) (hp c hn hc)
  · rw [hread] at h
    cases h
    rcases List.append_eq_append_iff.mp hkept with ⟨kept', rfl, hrest⟩ | ⟨lost', rfl, -⟩
    · cases kept' with
      | nil =>
        rw [List.append_nil]
        exact (hnil _ (skipBlanks_eq_nil_iff.mpr hg)).atCut
      | cons a kept' =>
        obtain ⟨rfl, rfl⟩ := List.cons.inj hrest
        rw [hcons _ _ _ (skipBlanks_gap hg hblank kept') hpb]
        exact .past rfl
    · exact (hnil _ (skipBlanks_eq_nil_iff.mpr (blanks_append_iff.mp hg).1)).atCut

/-- The byte looked at begins a value. -/
theorem peek_value {v : β} {b : UInt8} {rest : Bytes} (hb : skipBlanks bytes = b :: rest)
    (hc : ¬ (b == closeBracket) = true)
    (hnil : ∀ bytes, skipBlanks bytes = [] → EndsEarly (f bytes))
    (hcons : ∀ bytes c rest, skipBlanks bytes = c :: rest → ¬ (c == closeBracket) = true →
      f bytes = .ok (v, c :: rest)) : Forward f bytes :=
  peek _ hb hc (fun _ _ hne h => hne (eq_of_beq h)) hnil hcons

/-- The byte looked at begins no number, so it stays what it is. -/
theorem peek_byte {v : β} {b : UInt8} {rest : Bytes} (hb : skipBlanks bytes = b :: rest)
    (hn : ¬ BeginsNumber b) (hnil : ∀ bytes, skipBlanks bytes = [] → EndsEarly (f bytes))
    (hcons : ∀ bytes rest, skipBlanks bytes = b :: rest → f bytes = .ok (v, b :: rest)) :
    Forward f bytes :=
  peek (· = b) hb rfl (fun _ h => absurd h hn) hnil fun bytes _ rest h hc => by
    subst hc
    exact hcons bytes rest h

/-- A step, and one that goes on where it has come to. -/
theorem bind {h : β × Bytes → Except Fault (γ × Bytes)} (hg : Forward g bytes)
    (hh : ∀ v rest, g bytes = .ok (v, rest) → Forward (fun rest => h (v, rest)) rest) :
    Forward (fun bytes => g bytes >>= h) bytes where
  stable := by
    intro w rest hread
    obtain ⟨⟨v, mid⟩, hv, hw⟩ := bind_eq_ok.mp hread
    obtain ⟨used, rfl, hused⟩ := hg.stable hv
    obtain ⟨more, rfl, hmore⟩ := (hh v mid hv).stable hw
    refine ⟨used ++ more, by simp, fun rest' hr => ?_⟩
    rw [List.append_assoc]
    exact bind_eq_ok.mpr ⟨_, hused _ (hr.append more), hmore rest' hr⟩
  cut := by
    intro kept lost w rest hbytes hread
    obtain ⟨⟨v, mid⟩, hv, hw⟩ := bind_eq_ok.mp hread
    have hcut := hg.cut hbytes hv
    generalize hx : g kept = x at hcut
    cases hcut with
    | short h =>
      -- the first step finds what is kept too short, wherever the second would go
      refine .short ?_
      refine h.append [] fun bytes _ hb => ?_
      exact bind_eq_ok.mpr ⟨_, hb, hw⟩
    | @past mid' hmid =>
      -- the cut is behind the first step, so the second one finds what there is to find
      subst hmid
      obtain ⟨used, hused, hstable⟩ := hg.stable hv
      have hkept : kept = used ++ mid' := by
        rw [hbytes, ← List.append_assoc] at hused
        exact List.append_cancel_right hused
      have hcut' := (hh v _ hv).cut rfl hw
      show AtCut _ kept lost w rest (h (v, mid'))
      generalize h (v, mid') = y at hcut'
      cases hcut' with
      | past hrest => exact .past hrest
      | short hshort =>
        rw [hkept]
        refine .short (hshort.append used fun bytes hr hb => ?_)
        exact bind_eq_ok.mpr ⟨_, hstable _ hr, hb⟩

end Forward

end BuildFleet.Json
