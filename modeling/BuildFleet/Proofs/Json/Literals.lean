import BuildFleet.Proofs.Json.Placed

/-!
# JSON — literals, right and wrong

A literal goes from its quote to the next one that is not behind a backslash.  What stands between the
two (`Inside`) is a spelling of a string, or there is something wrong with it (`Broken`): a control
character, an escape that is none, a surrogate without its other half, or bytes that are not UTF-8.

* `broken_iff`: a literal is either a spelling or broken, and never both.
* `readText_of_broken`: a broken literal is not read, whatever follows.

Both halves of a surrogate pair are escapes of their own, so a spelling can be cut in front of a
backslash in two ways: between characters, or in the middle of a pair (`Spelling.cut`).
-/

namespace BuildFleet.Json
open String (utf8EncodeChar)
open Text.Utf8

/-- What may stand between the quotes of a literal, right or wrong. -/
inductive Inside : Bytes → Prop where
  | nil : Inside []
  | byte {b : UInt8} {more : Bytes} : b ≠ quote → b ≠ backslash → Inside more → Inside (b :: more)
  | escape {b : UInt8} {more : Bytes} : Inside more → Inside (backslash :: b :: more)

/-- The escapes by a code unit of the given range, with their backslash. -/
inductive SurrogateEscape (first last : Nat) : Bytes → Prop where
  | unit {digits : Bytes} {n : Nat} : HexUnit digits n → first ≤ n → n ≤ last →
      SurrogateEscape first last (backslash :: letterU :: digits)

abbrev LeadingEscape : Bytes → Prop :=
  SurrogateEscape 0xd800 0xdbff

abbrev TrailingEscape : Bytes → Prop :=
  SurrogateEscape 0xdc00 0xdfff

/-- What stands between the quotes of a literal that spells nothing. -/
inductive Broken : Bytes → Prop where
  /-- A control character. -/
  | control {front rest : Bytes} {b : UInt8} : b < 0x20 → Broken (front ++ b :: rest)
  /-- A backslash in front of a letter that no escape has. -/
  | letter {front rest : Bytes} {b : UInt8} : Inside front → b ∉ shortEscapes.map Prod.fst →
      b ≠ letterU → Broken (front ++ backslash :: b :: rest)
  /-- A code unit that has no four hexadecimal digits. -/
  | digits {front rest : Bytes} : Inside front →
      (∀ digits n more, HexUnit digits n → rest ≠ digits ++ more) →
      Broken (front ++ backslash :: letterU :: rest)
  /-- A leading surrogate with no trailing one behind it. -/
  | leading {front high rest : Bytes} : Inside front → LeadingEscape high →
      (∀ low more, TrailingEscape low → rest ≠ low ++ more) → Broken (front ++ high ++ rest)
  /-- A trailing surrogate with no leading one in front of it. -/
  | trailing {front low rest : Bytes} : Inside front → TrailingEscape low →
      (∀ before high, Inside before → LeadingEscape high → front ≠ before ++ high) →
      Broken (front ++ low ++ rest)
  /-- Bytes that are not UTF-8. -/
  | bytes {body : Bytes} : ¬ Valid body → Broken body

/-! ### Between the quotes -/

theorem Inside.append {xs ys : Bytes} (hx : Inside xs) (hy : Inside ys) : Inside (xs ++ ys) := by
  induction hx with
  | nil => exact hy
  | byte hq hb _ ih => exact .byte hq hb ih
  | escape _ ih => exact .escape ih

/-- Bytes that are no backslash can be left out in front. -/
theorem Inside.drop {bs more : Bytes} (hbs : backslash ∉ bs) (h : Inside (bs ++ more)) :
    Inside more := by
  induction bs with
  | nil => exact h
  | cons b bs ih =>
    rw [List.mem_cons, not_or] at hbs
    generalize hw : b :: bs ++ more = whole at h
    cases h with
    | nil => cases hw
    | byte _ _ h =>
      obtain ⟨rfl, rfl⟩ := List.cons.inj hw
      exact ih hbs.2 h
    | escape => exact absurd (List.cons.inj hw).1.symm hbs.1

/-- The first quote that is not behind a backslash ends the literal. -/
theorem Inside.unique {body body' rest rest' : Bytes} (h : Inside body) (h' : Inside body')
    (heq : body ++ quote :: rest = body' ++ quote :: rest') : body = body' ∧ rest = rest' := by
  induction h generalizing body' with
  | nil =>
    cases h' with
    | nil => exact ⟨rfl, (List.cons.inj heq).2⟩
    | byte hq => exact absurd (List.cons.inj heq).1.symm hq
    | escape => cases heq
  | byte hq hb _ ih =>
    cases h' with
    | nil => exact absurd (List.cons.inj heq).1 hq
    | byte _ _ h' =>
      obtain ⟨rfl, htail⟩ := List.cons.inj heq
      obtain ⟨rfl, rfl⟩ := ih h' htail
      exact ⟨rfl, rfl⟩
    | escape => exact absurd (List.cons.inj heq).1 hb
  | escape _ ih =>
    cases h' with
    | nil => cases heq
    | byte _ hb => exact absurd (List.cons.inj heq).1.symm hb
    | escape h' =>
      obtain ⟨rfl, htail⟩ := List.cons.inj (List.cons.inj heq).2
      obtain ⟨rfl, rfl⟩ := ih h' htail
      exact ⟨rfl, rfl⟩

/-- Bytes in front of a backslash, cut where others end that have none. -/
theorem exists_append_of_not_mem {front rest bs more : Bytes} (hbs : backslash ∉ bs)
    (h : front ++ backslash :: rest = bs ++ more) :
    ∃ front', front = bs ++ front' ∧ more = front' ++ backslash :: rest := by
  rcases List.append_eq_append_iff.mp h with ⟨mid, hmid, hrest⟩ | ⟨front', hfront, hmore⟩
  · cases mid with
    | nil => exact ⟨[], by simpa using hmid.symm, by simpa using hrest.symm⟩
    | cons b mid =>
      obtain ⟨rfl, -⟩ := List.cons.inj hrest
      exact absurd (hmid ▸ List.mem_append_right _ List.mem_cons_self) hbs
  · exact ⟨front', hfront, hmore⟩

/-! ### The bytes of a spelling -/

theorem HexDigit.plainByte {b : UInt8} {n : Nat} (h : HexDigit b n) : PlainByte b := by
  cases h with
  | decimal h =>
    have : ∀ n < 10, PlainByte (UInt8.ofNat (0x30 + n)) := by unfold PlainByte; decide
    exact this _ h
  | lower h =>
    have : ∀ n < 6, PlainByte (UInt8.ofNat (0x61 + n)) := by unfold PlainByte; decide
    exact this _ h
  | upper h =>
    have : ∀ n < 6, PlainByte (UInt8.ofNat (0x41 + n)) := by unfold PlainByte; decide
    exact this _ h

theorem HexUnit.length {digits : Bytes} {n : Nat} (h : HexUnit digits n) : digits.length = 4 := by
  cases h
  rfl

theorem HexUnit.plainByte {digits : Bytes} {n : Nat} (h : HexUnit digits n) :
    ∀ b ∈ digits, PlainByte b ∧ b < 0x80 := by
  cases h with
  | digits ha hb hc hd =>
    simp only [List.mem_cons, List.not_mem_nil, or_false, forall_eq_or_imp, forall_eq]
    exact ⟨⟨ha.plainByte, ha.lt_0x80⟩, ⟨hb.plainByte, hb.lt_0x80⟩, ⟨hc.plainByte, hc.lt_0x80⟩,
      hd.plainByte, hd.lt_0x80⟩

theorem HexUnit.not_mem {digits : Bytes} {n : Nat} (h : HexUnit digits n) : backslash ∉ digits :=
  fun hb => (h.plainByte _ hb).1.2.2 rfl

/-- Four digits are those of one code unit, whatever follows. -/
theorem HexUnit.unique {digits digits' more more' : Bytes} {n n' : Nat} (h : HexUnit digits n)
    (h' : HexUnit digits' n') (heq : digits ++ more = digits' ++ more') : n = n' ∧ more = more' := by
  obtain ⟨rfl, rfl⟩ := List.append_inj heq (h.length.trans h'.length.symm)
  cases h with
  | digits ha hb hc hd =>
    have hn := codeUnit?_eq_some_iff.mpr (.digits ha hb hc hd)
    have hn' := codeUnit?_eq_some_iff.mpr h'
    exact ⟨Option.some.inj (hn.symm.trans hn'), rfl⟩

theorem inside_of_plainByte {bs : Bytes} (h : ∀ b ∈ bs, PlainByte b) : Inside bs := by
  induction bs with
  | nil => exact .nil
  | cons b bs ih =>
    have hb := h b List.mem_cons_self
    exact .byte hb.2.1 hb.2.2 (ih fun x hx => h x (List.mem_cons_of_mem b hx))

theorem inside_unit {digits : Bytes} {n : Nat} (h : HexUnit digits n) :
    Inside (backslash :: letterU :: digits) :=
  .escape (inside_of_plainByte fun b hb => (h.plainByte b hb).1)

theorem CharSpelling.inside {c : Char} {text : Bytes} (h : CharSpelling c text) : Inside text := by
  cases h with
  | plain hlow hq hb => exact inside_of_plainByte (plainByte_of_mem_encodeChar hlow hq hb)
  | escaped h =>
    cases h with
    | short => exact .escape .nil
    | units h =>
      cases h with
      | unit hd => exact inside_unit hd
      | pair hh hl => exact (inside_unit hh).append (inside_unit hl)

theorem CharSpelling.ne_nil {c : Char} {text : Bytes} (h : CharSpelling c text) : text ≠ [] := by
  cases h with
  | plain => exact String.utf8EncodeChar_ne_nil
  | escaped => exact List.cons_ne_nil _ _

theorem Spelling.inside {cs : List Char} {body : Bytes} (h : Spelling cs body) : Inside body := by
  induction h with
  | nil => exact .nil
  | cons hc _ ih => exact hc.inside.append ih

/-- The bytes of an escape are characters of their own, and no control characters. -/
theorem Escape.bytes {c : Char} {text : Bytes} (h : Escape c text) :
    ∀ b ∈ text, 0x20 ≤ b ∧ b < 0x80 := by
  have hunit : ∀ {digits n}, HexUnit digits n → ∀ b ∈ digits, 0x20 ≤ b ∧ b < 0x80 :=
    fun hd b hb => ⟨(hd.plainByte b hb).1.1, (hd.plainByte b hb).2⟩
  have hu : 0x20 ≤ letterU ∧ letterU < 0x80 := by decide
  have hb : 0x20 ≤ backslash ∧ backslash < 0x80 := by decide
  cases h with
  | short hc =>
    have hall : ∀ p ∈ shortEscapes, 0x20 ≤ p.1 ∧ p.1 < 0x80 := by decide
    exact List.forall_mem_singleton.mpr (hall _ hc)
  | units h =>
    cases h with
    | unit hd => exact List.forall_mem_cons.mpr ⟨hu, hunit hd⟩
    | pair hh hl =>
      refine List.forall_mem_cons.mpr ⟨hu, List.forall_mem_append.mpr ⟨hunit hh, ?_⟩⟩
      exact List.forall_mem_cons.mpr ⟨hb, List.forall_mem_cons.mpr ⟨hu, hunit hl⟩⟩

theorem Spelling.le_of_mem {cs : List Char} {body : Bytes} (h : Spelling cs body) :
    ∀ b ∈ body, 0x20 ≤ b := by
  induction h with
  | nil => exact fun b hb => absurd hb List.not_mem_nil
  | cons hc _ ih =>
    refine List.forall_mem_append.mpr ⟨fun b hb => ?_, ih⟩
    cases hc with
    | plain hlow hq hs => exact (plainByte_of_mem_encodeChar hlow hq hs b hb).1
    | escaped h =>
      rcases List.mem_cons.mp hb with rfl | hb
      · decide
      · exact (h.bytes b hb).1

theorem valid_of_lt {bs : Bytes} (h : ∀ b ∈ bs, b < 0x80) : Valid bs := by
  induction bs with
  | nil => exact valid_nil
  | cons b bs ih =>
    exact (valid_cons_iff (h b List.mem_cons_self)).mpr (ih fun x hx => h x (List.mem_cons_of_mem b hx))

theorem Spelling.valid {cs : List Char} {body : Bytes} (h : Spelling cs body) : Valid body := by
  induction h with
  | nil => exact valid_nil
  | @cons c cs text more hc _ ih =>
    refine Valid.append ?_ ih
    cases hc with
    | plain => exact valid_encodeChar c
    | escaped h =>
      exact (valid_cons_iff (show backslash < 0x80 by decide)).mpr (valid_of_lt fun b hb => (h.bytes b hb).2)

/-! ### Cutting a spelling in front of a backslash -/

/-- The spelling of a character, with a backslash somewhere behind its first byte: it ends in front of the
backslash, or this is the one of its trailing surrogate. -/
theorem CharSpelling.cut {c : Char} {text front rest more : Bytes} (h : CharSpelling c text)
    (hf : Inside front) (hne : front ≠ []) (heq : front ++ backslash :: rest = text ++ more) :
    (∃ front', front = text ++ front' ∧ Inside front' ∧ more = front' ++ backslash :: rest) ∨
      LeadingEscape front ∧ ∃ low, TrailingEscape low ∧ backslash :: rest = low ++ more := by
  -- of bytes without a backslash, none can be missing in front of one
  have hdrop : ∀ {bs front more : Bytes}, backslash ∉ bs → Inside front →
      front ++ backslash :: rest = bs ++ more →
      ∃ front', front = bs ++ front' ∧ Inside front' ∧ more = front' ++ backslash :: rest := by
    intro bs front more hbs hf heq
    obtain ⟨front', rfl, hmore⟩ := exists_append_of_not_mem hbs heq
    exact ⟨front', rfl, hf.drop hbs, hmore⟩
  cases h with
  | plain hlow hq hb =>
    exact .inl (hdrop (fun hmem => (plainByte_of_mem_encodeChar hlow hq hb _ hmem).2.2 rfl) hf heq)
  | escaped h =>
    cases hf with
    | nil => exact absurd rfl hne
    | byte _ hb => exact absurd (List.cons.inj heq).1 hb
    | @escape b front hf =>
      have htail := (List.cons.inj heq).2
      cases h with
      | short =>
        obtain ⟨rfl, rfl⟩ := List.cons.inj htail
        exact .inl ⟨front, rfl, hf, rfl⟩
      | units h =>
        obtain ⟨rfl, hunits⟩ := List.cons.inj htail
        cases h with
        | unit hd =>
          obtain ⟨front', rfl, hf', hmore⟩ := hdrop hd.not_mem hf hunits
          exact .inl ⟨front', rfl, hf', hmore⟩
        | @pair high low leading trailing hh hlow hl hl' ht ht' hc =>
          have hhigh := hunits.trans (List.append_assoc high (backslash :: letterU :: low) more)
          obtain ⟨front', rfl, hf', hrest⟩ := hdrop hh.not_mem hf hhigh
          cases hf' with
          | nil =>
            refine .inr ⟨?_, backslash :: letterU :: low, .unit hlow ht ht', hrest.symm⟩
            rw [List.append_nil]
            exact .unit hh hl hl'
          | byte _ hb => exact absurd (List.cons.inj hrest).1.symm hb
          | escape hf' =>
            obtain ⟨rfl, hlast⟩ := List.cons.inj (List.cons.inj hrest).2
            obtain ⟨front'', rfl, hf'', hmore⟩ := hdrop hlow.not_mem hf' hlast.symm
            exact .inl ⟨front'', by simp, hf'', hmore⟩

/-- A spelling that has been cut in front of a backslash goes on with a spelling, unless the cut is between
the two halves of a surrogate pair. -/
theorem Spelling.cut {cs : List Char} {front rest : Bytes} (h : Spelling cs (front ++ backslash :: rest))
    (hf : Inside front) :
    (∃ ds, Spelling ds (backslash :: rest)) ∨
      ∃ before high low more, Inside before ∧ LeadingEscape high ∧ TrailingEscape low ∧
        front = before ++ high ∧ backslash :: rest = low ++ more := by
  generalize heq : front ++ backslash :: rest = body at h
  induction h generalizing front with
  | nil => cases front <;> cases heq
  | @cons c cs text more hc hcs ih =>
    by_cases hne : front = []
    · subst hne
      refine .inl ⟨c :: cs, ?_⟩
      rw [← List.nil_append (backslash :: rest), heq]
      exact .cons hc hcs
    · rcases hc.cut hf hne heq with ⟨front', rfl, hf', hmore⟩ | ⟨hhigh, low, hlow, hrest⟩
      · rcases ih hf' hmore.symm with hds | ⟨before, high, low, tail, hb, hhigh, hlow, rfl, hrest⟩
        · exact .inl hds
        · exact .inr ⟨text ++ before, high, low, tail, hc.inside.append hb, hhigh, hlow,
            (List.append_assoc ..).symm, hrest⟩
      · exact .inr ⟨[], front, low, more, .nil, hhigh, hlow, rfl, hrest⟩

/-- A spelling that begins with a backslash begins with an escape. -/
theorem Spelling.exists_escape {cs : List Char} {rest : Bytes} (h : Spelling cs (backslash :: rest)) :
    ∃ c text more, Escape c text ∧ rest = text ++ more := by
  generalize heq : backslash :: rest = body at h
  cases h with
  | nil => cases heq
  | cons hc =>
    cases hc with
    | plain hlow hq hb =>
      obtain ⟨b, tail, he, -⟩ := exists_encodeChar_eq _
      rw [he] at heq
      have hplain := plainByte_of_mem_encodeChar hlow hq hb b (he ▸ List.mem_cons_self)
      exact absurd (List.cons.inj heq).1.symm hplain.2.2
    | escaped h => exact ⟨_, _, _, h, (List.cons.inj heq).2⟩

/-- What follows the letter `u` in a spelling. -/
theorem Escape.of_letterU {c : Char} {text rest more : Bytes} (h : Escape c text)
    (heq : letterU :: rest = text ++ more) :
    ∃ units, UnitEscape c units ∧ rest = units ++ more := by
  cases h with
  | short hc =>
    have hall : ∀ p ∈ shortEscapes, p.1 ≠ letterU := by decide
    exact absurd (List.cons.inj heq).1.symm (hall _ hc)
  | units h => exact ⟨_, h, (List.cons.inj heq).2⟩

/-- No character has the number of a surrogate. -/
theorem not_surrogate_toNat (c : Char) : c.toNat < 0xd800 ∨ 0xdfff < c.toNat := by
  have hc : c.toNat.isValidChar := c.valid
  unfold Nat.isValidChar at hc
  omega

/-- A leading surrogate begins the escape of a character together with a trailing one. -/
theorem UnitEscape.of_leading {c : Char} {units digits rest more : Bytes} {n : Nat} (h : UnitEscape c units)
    (hd : HexUnit digits n) (hl : 0xd800 ≤ n) (hl' : n ≤ 0xdbff) (heq : digits ++ rest = units ++ more) :
    ∃ low more, TrailingEscape low ∧ rest = low ++ more := by
  cases h with
  | unit hu =>
    obtain ⟨rfl, -⟩ := hd.unique hu heq
    have := not_surrogate_toNat c
    omega
  | pair hh hlow _ _ ht ht' =>
    rw [List.append_assoc] at heq
    exact ⟨_, _, .unit hlow ht ht', (hd.unique hh heq).2⟩

/-- A trailing surrogate begins no escape of a character. -/
theorem UnitEscape.not_of_trailing {c : Char} {units digits rest more : Bytes} {n : Nat}
    (h : UnitEscape c units) (hd : HexUnit digits n) (ht : 0xdc00 ≤ n) (ht' : n ≤ 0xdfff) :
    digits ++ rest ≠ units ++ more := by
  intro heq
  cases h with
  | unit hu =>
    obtain ⟨rfl, -⟩ := hd.unique hu heq
    have := not_surrogate_toNat c
    omega
  | pair hh _ _ hl' =>
    rw [List.append_assoc] at heq
    obtain ⟨rfl, -⟩ := hd.unique hh heq
    omega

/-! ### Spelled or broken -/

theorem Spelling.not_broken {cs : List Char} {body : Bytes} (h : Spelling cs body) : ¬ Broken body := by
  intro hb
  cases hb with
  | control hb =>
    exact UInt8.not_lt.mpr (h.le_of_mem _ (List.mem_append_right _ List.mem_cons_self)) hb
  | @letter front rest b hf hshort hu =>
    rcases h.cut hf with ⟨ds, hds⟩ | ⟨_, _, low, more, -, -, hlow, -, hrest⟩
    · obtain ⟨c, text, more, hesc, heq⟩ := hds.exists_escape
      cases hesc with
      | short hc =>
        obtain ⟨rfl, -⟩ := List.cons.inj heq
        exact hshort (List.mem_map_of_mem hc)
      | units => exact hu (List.cons.inj heq).1
    · cases hlow
      exact hu (List.cons.inj (List.cons.inj hrest).2).1
  | @digits front rest hf hnone =>
    rcases h.cut hf with ⟨ds, hds⟩ | ⟨_, _, low, more, -, -, hlow, -, hrest⟩
    · obtain ⟨c, text, more, hesc, heq⟩ := hds.exists_escape
      obtain ⟨units, hunits, rfl⟩ := hesc.of_letterU heq
      cases hunits with
      | unit hu => exact hnone _ _ _ hu rfl
      | pair hh => exact hnone _ _ _ hh (List.append_assoc ..)
    · cases hlow with
      | unit hd => exact hnone _ _ _ hd (List.cons.inj (List.cons.inj hrest).2).2
  | @leading front high rest hf hhigh hnone =>
    cases hhigh with
    | @unit digits n hd hl hl' =>
      rw [List.append_assoc] at h
      rcases h.cut hf with ⟨ds, hds⟩ | ⟨_, _, low, more, -, -, hlow, -, hrest⟩
      · obtain ⟨c, text, more, hesc, heq⟩ := hds.exists_escape
        obtain ⟨units, hunits, heq⟩ := hesc.of_letterU heq
        obtain ⟨low, more, hlow, rfl⟩ := hunits.of_leading hd hl hl' heq
        exact hnone low more hlow rfl
      · -- the unit would have to be a trailing one too
        cases hlow with
        | unit hd' ht =>
          obtain ⟨rfl, -⟩ := hd.unique hd' (List.cons.inj (List.cons.inj hrest).2).2
          omega
  | @trailing front low rest hf hlow hnone =>
    cases hlow with
    | @unit digits n hd ht ht' =>
      rw [List.append_assoc] at h
      rcases h.cut hf with ⟨ds, hds⟩ | ⟨before, high, _, _, hb, hhigh, -, rfl, -⟩
      · obtain ⟨c, text, more, hesc, heq⟩ := hds.exists_escape
        obtain ⟨units, hunits, heq⟩ := hesc.of_letterU heq
        exact hunits.not_of_trailing hd ht ht' heq
      · exact hnone before high hb hhigh rfl
  | bytes hv => exact hv h.valid

/-- No spelling ends with a leading surrogate. -/
theorem Spelling.not_leading {cs : List Char} {before high : Bytes} (h : Spelling cs (before ++ high))
    (hb : Inside before) : ¬ LeadingEscape high := by
  intro hhigh
  refine h.not_broken ?_
  rw [← List.append_nil (before ++ high)]
  refine .leading hb hhigh fun low more hlow hnil => ?_
  cases hlow
  cases hnil

/-- What follows the letter `u` are the code units of a character, if nothing is broken. -/
theorem exists_unitEscape {cs : List Char} {front rest : Bytes} (hs : Spelling cs front)
    (hin : Inside rest) (hv : Valid rest) (hnot : ¬ Broken (front ++ backslash :: letterU :: rest)) :
    ∃ c units more, UnitEscape c units ∧ rest = units ++ more ∧ Inside more ∧ Valid more := by
  have hdigits : ∃ digits n more, HexUnit digits n ∧ rest = digits ++ more := by
    by_contra hnone
    exact hnot (.digits hs.inside fun digits n more hd heq => hnone ⟨digits, n, more, hd, heq⟩)
  obtain ⟨digits, n, rest, hd, rfl⟩ := hdigits
  have hin' := hin.drop hd.not_mem
  have hv' := hd.endsPlain.valid hv
  have hsplit : front ++ backslash :: letterU :: (digits ++ rest) =
      front ++ backslash :: letterU :: digits ++ rest := by simp
  by_cases hlead : 0xd800 ≤ n ∧ n ≤ 0xdbff
  · have hlow : ∃ low more, TrailingEscape low ∧ rest = low ++ more := by
      by_contra hnone
      refine hnot (hsplit ▸ .leading hs.inside (.unit hd hlead.1 hlead.2) fun low more hlow heq => ?_)
      exact hnone ⟨low, more, hlow, heq⟩
    obtain ⟨_, more, @⟨low, m, hlow, ht, ht'⟩, rfl⟩ := hlow
    have hvalid : (pairCodePoint n m).isValidChar :=
      isValidChar_pairCodePoint (by simp [isLeading, hlead]) (by simp [isTrailing, ht, ht'])
    have hplain : backslash < 0x80 ∧ letterU < 0x80 := by decide
    refine ⟨Char.ofNat (pairCodePoint n m), digits ++ backslash :: letterU :: low, more,
      .pair hd hlow hlead.1 hlead.2 ht ht' (toNat_ofNat hvalid), by simp, ?_, ?_⟩
    · cases hin' with
      | byte _ hb => exact absurd rfl hb
      | escape hin' => exact hin'.drop hlow.not_mem
    · exact hlow.endsPlain.valid ((valid_cons_iff hplain.2).mp ((valid_cons_iff hplain.1).mp hv'))
  · have htrail : ¬ (0xdc00 ≤ n ∧ n ≤ 0xdfff) := by
      intro ht
      refine hnot (hsplit ▸ .trailing hs.inside (.unit hd ht.1 ht.2) ?_)
      rintro before high hb hhigh rfl
      exact hs.not_leading hb hhigh
    have hvalid : n.isValidChar := by
      have := hd.lt
      unfold Nat.isValidChar
      omega
    exact ⟨Char.ofNat n, digits, rest, .unit (by rwa [toNat_ofNat hvalid]), rfl, hin', hv'⟩

/-- What is behind a spelling begins with the spelling of a character, if nothing is broken. -/
theorem exists_charSpelling {cs : List Char} {front rest : Bytes} (hs : Spelling cs front)
    (hr : Inside rest) (hv : Valid rest) (hne : rest ≠ []) (hnot : ¬ Broken (front ++ rest)) :
    ∃ c text more, CharSpelling c text ∧ rest = text ++ more ∧ Inside more ∧ Valid more := by
  cases hr with
  | nil => exact absurd rfl hne
  | @byte b more hq hb hin =>
    have hlow : 0x20 ≤ b := UInt8.not_lt.mp fun hlt => hnot (.control hlt)
    obtain ⟨ds, hds⟩ := hv
    cases ds with
    | nil => cases hds
    | cons c ds =>
      obtain ⟨first, tail, hc, -⟩ := exists_encodeChar_eq c
      rw [List.flatMap_cons] at hds
      have hfirst : b = first := by
        rw [hc] at hds
        exact (List.cons.inj hds).1
      obtain ⟨hlow, hquote, hslash⟩ := (plainByte_iff hc).mp (hfirst ▸ ⟨hlow, hq, hb⟩)
      have hin' : Inside (utf8EncodeChar c ++ ds.flatMap utf8EncodeChar) := hds ▸ .byte hq hb hin
      have hnone : backslash ∉ utf8EncodeChar c :=
        fun h => (plainByte_of_mem_encodeChar hlow hquote hslash _ h).2.2 rfl
      exact ⟨c, _, _, .plain hlow hquote hslash, hds, hin'.drop hnone, ds, rfl⟩
  | @escape letter more hin =>
    have hv' : Valid (letter :: more) := (valid_cons_iff (show backslash < 0x80 by decide)).mp hv
    by_cases hshort : letter ∈ shortEscapes.map Prod.fst
    · obtain ⟨⟨letter, c⟩, hc, rfl⟩ := List.mem_map.mp hshort
      have hall : ∀ p ∈ shortEscapes, p.1 < 0x80 := by decide
      exact ⟨c, _, more, .escaped (.short hc), rfl, hin, (valid_cons_iff (hall _ hc)).mp hv'⟩
    · have hu : letter = letterU := by
        by_contra hu
        exact hnot (.letter hs.inside hshort hu)
      subst hu
      obtain ⟨c, units, rest, hunits, rfl, hin, hv⟩ := exists_unitEscape hs hin
        ((valid_cons_iff (show letterU < 0x80 by decide)).mp hv') hnot
      exact ⟨c, _, rest, .escaped (.units hunits), rfl, hin, hv⟩

theorem Spelling.append {cs ds : List Char} {xs ys : Bytes} (hx : Spelling cs xs) (hy : Spelling ds ys) :
    Spelling (cs ++ ds) (xs ++ ys) := by
  induction hx with
  | nil => exact hy
  | cons hc _ ih =>
    rw [List.append_assoc]
    exact .cons hc ih

/-- What is behind a spelling is a spelling, if nothing is broken. -/
theorem exists_spelling_behind {cs : List Char} {front rest : Bytes} (hs : Spelling cs front)
    (hr : Inside rest) (hv : Valid rest) (hnot : ¬ Broken (front ++ rest)) : ∃ ds, Spelling ds rest := by
  by_cases hne : rest = []
  · exact ⟨[], hne ▸ .nil⟩
  · obtain ⟨c, text, more, hc, rfl, hr', hv'⟩ := exists_charSpelling hs hr hv hne hnot
    have hs' : Spelling (cs ++ [c]) (front ++ text) := by
      refine hs.append ?_
      have h := Spelling.cons hc .nil
      rwa [List.append_nil] at h
    have hshorter : more.length < (text ++ more).length := by
      have hpos := List.length_pos_iff.mpr hc.ne_nil
      rw [List.length_append]
      omega
    obtain ⟨ds, hds⟩ := exists_spelling_behind hs' hr' hv' (by rwa [List.append_assoc])
    exact ⟨c :: ds, .cons hc hds⟩
termination_by rest.length

/-- What stands between the quotes of a literal is broken, or a spelling of a string. -/
theorem broken_iff {body : Bytes} (h : Inside body) :
    Broken body ↔ ∀ s : String, ¬ Spelling s.toList body := by
  refine ⟨fun hb s hs => hs.not_broken hb, fun hnone => ?_⟩
  by_contra hnot
  have hv : Valid body := by
    by_contra hv
    exact hnot (.bytes hv)
  obtain ⟨cs, hcs⟩ := exists_spelling_behind .nil h hv hnot
  exact hnone (String.ofList cs) (by rwa [String.toList_ofList])

/-! ### Reading -/

/-- A broken literal is not read, whatever follows. -/
theorem readText_of_broken {e : Ending} {body : Bytes} (h : Inside body) (hb : Broken body) (rest : Bytes) :
    ∃ fault, readText e (body ++ quote :: rest) = .error fault := by
  cases hread : readText e (body ++ quote :: rest) with
  | error fault => exact ⟨fault, rfl⟩
  | ok read =>
    obtain ⟨body', hbody', heq⟩ := readText_eq_ok_iff.mp hread
    obtain ⟨rfl, -⟩ := h.unique hbody'.inside heq
    exact absurd hb hbody'.not_broken

end BuildFleet.Json
