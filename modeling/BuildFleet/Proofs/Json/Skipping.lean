import BuildFleet.Json.Skip
import BuildFleet.Proofs.Json.Numbers
import BuildFleet.Proofs.Json.Strings

/-!
# JSON — the values that are passed over

* `exists_value_of_skipValue`: what is passed over is a value, with blanks in front.
* `skipValue_of_value`: a value is passed over, whatever its depth, if nothing follows that could be
  more of it (`Ends`).

The walk keeps no record of what it has passed, only the frames that are open.  For the first
statement these say what the bytes still ahead have to look like: `Closes`.  For the second, a phrase
of the grammar is passed over whatever frames are open around it: `Passes`.
-/

namespace BuildFleet.Json

/-! ### Keys -/

theorem readColon_eq_ok_iff {e : Ending} {bytes rest : Bytes} :
    readColon e bytes = .ok rest ↔ ∃ gap, Blanks gap ∧ bytes = gap ++ colon :: rest := by
  refine ⟨?_, ?_⟩
  · intro h
    rw [readColon] at h
    split at h
    · cases h
    · rename_i b tail hb
      split at h
      · rename_i hc
        cases h
        obtain rfl := eq_of_beq hc
        exact (skipBlanks_eq_cons_iff.mp hb).2
      · cases h
  · rintro ⟨gap, hg, rfl⟩
    simp [readColon, skipBlanks_gap hg (show isBlank colon = false from rfl)]

theorem skipKey_eq_ok_iff {e : Ending} {bytes rest : Bytes} :
    skipKey e bytes = .ok rest ↔ ∃ key, RawKey key ∧ bytes = key ++ rest := by
  refine ⟨?_, ?_⟩
  · intro h
    rw [skipKey] at h
    split at h
    · cases h
    · rename_i b tail hb
      split at h
      · rename_i hq
        obtain rfl := eq_of_beq hq
        obtain ⟨-, before, hbefore, rfl⟩ := skipBlanks_eq_cons_iff.mp hb
        obtain ⟨rest₁, h₁, h₂⟩ := bind_eq_ok.mp h
        obtain ⟨body, hbody, rfl⟩ := skipText_eq_ok_iff.mp h₁
        obtain ⟨after, hafter, rfl⟩ := readColon_eq_ok_iff.mp h₂
        exact ⟨_, .quoted hbefore hbody hafter, by simp⟩
      · cases h
  · rintro ⟨key, hkey, rfl⟩
    cases hkey with
    | @quoted before body after hbefore hbody hafter =>
      rw [show before ++ quote :: body ++ quote :: after ++ [colon] ++ rest =
        before ++ quote :: (body ++ quote :: (after ++ colon :: rest)) by simp, skipKey,
        skipBlanks_gap hbefore (show isBlank quote = false from rfl)]
      refine bind_eq_ok.mpr ⟨after ++ colon :: rest, skipText_of_rawBody hbody _, ?_⟩
      exact readColon_eq_ok_iff.mpr ⟨after, hafter, rfl⟩

theorem skipKey_skipBlanks (e : Ending) (bytes : Bytes) :
    skipKey e (skipBlanks bytes) = skipKey e bytes := by
  rw [skipKey, skipKey, skipBlanks_skipBlanks]

namespace Frame

/-- What stands between the brackets of a frame. -/
def part : Frame → Part
  | list => .elements
  | object => .members

/-- What stands in front of the value of an item: the key of a member, and blanks otherwise. -/
def Lead : Frame → Bytes → Prop
  | list => Blanks
  | object => RawKey

theorem toValue_eq_ok_lead {e : Ending} {frame : Frame} {bytes rest : Bytes}
    (h : frame.toValue e bytes = .ok rest) : ∃ lead, frame.Lead lead ∧ bytes = lead ++ rest := by
  cases frame with
  | list =>
    cases h
    exact ⟨[], blanks_nil, rfl⟩
  | object => exact skipKey_eq_ok_iff.mp h

/-- What opens a frame. -/
def opening : Frame → UInt8
  | list => openBracket
  | object => openBrace

theorem opened?_eq_some_iff {b : UInt8} {frame : Frame} :
    opened? b = some frame ↔ b = frame.opening := by
  refine ⟨?_, ?_⟩
  · intro h
    rw [opened?] at h
    split at h
    · rename_i hb
      cases h
      exact eq_of_beq hb
    · split at h
      · rename_i hb
        cases h
        exact eq_of_beq hb
      · cases h
  · rintro rfl
    cases frame <;> rfl

theorem isBlank_opening (frame : Frame) : isBlank frame.opening = false := by
  cases frame <;> rfl

theorem isBlank_closing (frame : Frame) : isBlank frame.closing = false := by
  cases frame <;> rfl

theorem closing_ne_comma (frame : Frame) : (frame.closing == comma) = false := by
  cases frame <;> rfl

/-- What is passed by going into a frame. -/
theorem enter_eq_ok {e : Ending} {frame : Frame} {bytes rest : Bytes} {stage : Stage}
    (h : frame.enter e bytes = .ok (stage, rest)) :
    (stage = .value ∧ ∃ lead, frame.Lead lead ∧ bytes = lead ++ rest) ∨
      (stage = .after ∧ ∃ gap, Blanks gap ∧ bytes = gap ++ frame.closing :: rest) := by
  rw [enter] at h
  split at h
  · cases h
  · rename_i b tail hb
    obtain ⟨-, gap, hg, rfl⟩ := skipBlanks_eq_cons_iff.mp hb
    split at h
    · rename_i hc
      cases h
      exact .inr ⟨rfl, gap, hg, by rw [eq_of_beq hc]⟩
    · obtain ⟨rest₁, h₁, h₂⟩ := bind_eq_ok.mp h
      cases h₂
      refine .inl ⟨rfl, ?_⟩
      cases frame with
      | list =>
        cases h₁
        exact ⟨gap, hg, rfl⟩
      | object =>
        -- the blanks in front of the first key belong to it
        rw [toValue, ← hb, skipKey_skipBlanks] at h₁
        exact skipKey_eq_ok_iff.mp h₁

/-- What is passed by going on after an item. -/
theorem advance_eq_ok {e : Ending} {frame : Frame} {bytes rest : Bytes} {stage : Stage}
    (h : frame.advance e bytes = .ok (stage, rest)) : ∃ gap, Blanks gap ∧
      ((stage = .value ∧ ∃ lead, frame.Lead lead ∧ bytes = gap ++ comma :: lead ++ rest) ∨
        (stage = .after ∧ bytes = gap ++ frame.closing :: rest)) := by
  rw [advance] at h
  split at h
  · cases h
  · rename_i b tail hb
    obtain ⟨-, gap, hg, rfl⟩ := skipBlanks_eq_cons_iff.mp hb
    refine ⟨gap, hg, ?_⟩
    split at h
    · rename_i hc
      obtain rfl := eq_of_beq hc
      obtain ⟨rest₁, h₁, h₂⟩ := bind_eq_ok.mp h
      cases h₂
      obtain ⟨lead, hlead, rfl⟩ := toValue_eq_ok_lead h₁
      exact .inl ⟨rfl, lead, hlead, by simp⟩
    · split at h
      · rename_i hc
        cases h
        exact .inr ⟨rfl, by rw [eq_of_beq hc]⟩
      · cases h

theorem advance_comma {e : Ending} {frame : Frame} {gap bytes rest : Bytes} (hg : Blanks gap)
    (h : frame.toValue e bytes = .ok rest) :
    frame.advance e (gap ++ comma :: bytes) = .ok (.value, rest) := by
  rw [advance, skipBlanks_gap hg (show isBlank comma = false from rfl)]
  exact bind_eq_ok.mpr ⟨rest, h, rfl⟩

theorem advance_closing {e : Ending} {frame : Frame} {gap : Bytes} (hg : Blanks gap)
    (rest : Bytes) : frame.advance e (gap ++ frame.closing :: rest) = .ok (.after, rest) := by
  rw [advance, skipBlanks_gap hg frame.isBlank_closing]
  simp [frame.closing_ne_comma]

theorem enter_closing {e : Ending} {frame : Frame} {gap : Bytes} (hg : Blanks gap)
    (rest : Bytes) : frame.enter e (gap ++ frame.closing :: rest) = .ok (.after, rest) := by
  rw [enter, skipBlanks_gap hg frame.isBlank_closing]
  simp

/-- An item of a frame that is the last one. -/
theorem phrase_last {frame : Frame} {lead before text after : Bytes} (hl : frame.Lead lead)
    (hb : Blanks before) (ht : Value text) (ha : Blanks after) :
    Phrase frame.part (lead ++ before ++ text ++ after) := by
  cases frame with
  | list => exact .lastElement (hl.append hb) ht ha
  | object => exact .lastMember hl hb ht ha

/-- An item of a frame that is not the last one. -/
theorem phrase_item {frame : Frame} {lead before text after more : Bytes} (hl : frame.Lead lead)
    (hb : Blanks before) (ht : Value text) (ha : Blanks after) (hm : Phrase frame.part more) :
    Phrase frame.part (lead ++ before ++ text ++ after ++ comma :: more) := by
  cases frame with
  | list => exact .element (hl.append hb) ht ha hm
  | object => exact .member hl hb ht ha hm

theorem phrase_empty {frame : Frame} {gap : Bytes} (hg : Blanks gap) :
    Value (frame.opening :: gap ++ [frame.closing]) := by
  cases frame with
  | list => exact .emptyList hg
  | object => exact .emptyObject hg

theorem phrase_nonempty {frame : Frame} {body : Bytes} (hb : Phrase frame.part body) :
    Value (frame.opening :: body ++ [frame.closing]) := by
  cases frame with
  | list => exact .list hb
  | object => exact .object hb

end Frame

/-! ### Values without parts -/

theorem Magnitude.ne_nil {text : Bytes} (h : Magnitude text) : text ≠ [] := by
  cases h with
  | parts hw => cases hw <;> simp

theorem skipNumber_eq_ok {e : Ending} {bytes rest : Bytes} (h : skipNumber e bytes = .ok rest) :
    ∃ text, Magnitude text ∧ bytes = text ++ rest := by
  obtain ⟨⟨n, rest₁⟩, h₁, h₂⟩ := bind_eq_ok.mp h
  obtain rfl := Ending.look_eq_ok h₂
  exact exists_magnitude h₁

/-- What is passed over without opening a frame is a value. -/
theorem value_of_skipScalar {e : Ending} {b : UInt8} {bytes rest : Bytes}
    (h : skipScalar e b bytes = .ok rest) : ∃ text, Value (b :: text) ∧ bytes = text ++ rest := by
  rw [skipScalar] at h
  split at h
  · rename_i hb
    obtain rfl := eq_of_beq hb
    exact ⟨_, .null, readLetters_eq_ok_iff.mp h⟩
  split at h
  · rename_i hb
    obtain rfl := eq_of_beq hb
    exact ⟨_, .true, readLetters_eq_ok_iff.mp h⟩
  split at h
  · rename_i hb
    obtain rfl := eq_of_beq hb
    exact ⟨_, .false, readLetters_eq_ok_iff.mp h⟩
  split at h
  · rename_i hb
    obtain rfl := eq_of_beq hb
    obtain ⟨text, ht, rfl⟩ := skipNumber_eq_ok h
    exact ⟨text, .negative ht, rfl⟩
  split at h
  · obtain ⟨text, ht, htext⟩ := skipNumber_eq_ok h
    obtain ⟨d, more, rfl⟩ := List.exists_cons_of_ne_nil ht.ne_nil
    obtain ⟨rfl, rfl⟩ := List.cons.inj htext
    exact ⟨more, .positive ht, rfl⟩
  split at h
  · rename_i hb
    obtain rfl := eq_of_beq hb
    obtain ⟨body, hbody, rfl⟩ := skipText_eq_ok_iff.mp h
    exact ⟨body ++ [quote], .string hbody, by simp⟩
  · cases h

/-- What may follow a value: the end of the bytes, a blank, or what ends an item. -/
def Ends (e : Ending) : Bytes → Prop
  | [] => e = .closed
  | b :: _ => isBlank b = true ∨ b = comma ∨ b = closeBracket ∨ b = closeBrace

theorem Ends.numberEnds {e : Ending} {rest : Bytes} (h : Ends e rest) : NumberEnds rest := by
  cases rest with
  | nil => exact ⟨headNot_nil _, headNot_nil _, headNot_nil _⟩
  | cons b rest =>
    have hb : isDigit b = false ∧ (b == point) = false ∧ isExponentLetter b = false := by
      simp only [Ends, isBlank, Bool.or_eq_true, beq_iff_eq, or_assoc] at h
      rcases h with rfl | rfl | rfl | rfl | rfl | rfl | rfl <;> decide
    refine ⟨headNot_cons hb.1 _, ?_, headNot_cons hb.2.2 _⟩
    intro c hc
    cases hc
    exact hb.2.1

theorem Ends.look {e : Ending} {rest : Bytes} (h : Ends e rest) : e.look rest = .ok rest := by
  cases rest with
  | nil =>
    obtain rfl : e = .closed := h
    rfl
  | cons b rest => cases e <;> rfl

theorem skipNumber_of_magnitude {e : Ending} {text rest : Bytes} (h : Magnitude text)
    (hr : Ends e rest) : skipNumber e (text ++ rest) = .ok rest := by
  obtain ⟨n, hn⟩ := @readNumeral_of_magnitude e .invalidNumber _ _ h hr.numberEnds
  exact bind_eq_ok.mpr ⟨_, hn, hr.look⟩

/-! ### What is passed over is a value -/

/-- What follows an item of a frame, up to the end of the frame. -/
inductive Tail (frame : Frame) : Bytes → Prop where
  | last {after : Bytes} : Blanks after → Tail frame (after ++ [frame.closing])
  | item {after more : Bytes} : Blanks after → Phrase frame.part more →
      Tail frame (after ++ comma :: more ++ [frame.closing])

/-- What closes the frames that are open, each after one of its items. -/
inductive Closes : List Frame → Bytes → Prop where
  | nil : Closes [] []
  | cons {frame : Frame} {frames : List Frame} {tail more : Bytes} : Tail frame tail →
      Closes frames more → Closes (frame :: frames) (tail ++ more)

/-- An item and what follows it are what stands between the brackets. -/
theorem Tail.exists_body {frame : Frame} {lead before text tail : Bytes} (h : Tail frame tail)
    (hl : frame.Lead lead) (hb : Blanks before) (ht : Value text) :
    ∃ body, Phrase frame.part body ∧ lead ++ before ++ text ++ tail = body ++ [frame.closing] := by
  cases h with
  | last ha => exact ⟨_, Frame.phrase_last hl hb ht ha, by simp⟩
  | item ha hm => exact ⟨_, Frame.phrase_item hl hb ht ha hm, by simp⟩

/-- What a walk has still to pass, from where it stands. -/
def Ahead : Stage → List Frame → Bytes → Prop
  | .value, frames, bytes => ∃ gap text more,
      Blanks gap ∧ Value text ∧ Closes frames more ∧ bytes = gap ++ text ++ more
  | .after, frames, bytes => Closes frames bytes

theorem ahead_of_skipFrames {e : Ending} {stage : Stage} {frames : List Frame}
    {bytes rest : Bytes} (h : skipFrames e stage frames bytes = .ok rest) :
    ∃ passed, Ahead stage frames passed ∧ bytes = passed ++ rest := by
  fun_induction skipFrames e stage frames bytes with
  | case1 | case2 | case5 | case8 => cases h
  | case3 frames bytes b rest' hb frame ho rest'' hent ih =>
    obtain ⟨-, gap, hg, rfl⟩ := skipBlanks_eq_cons_iff.mp hb
    obtain rfl := Frame.opened?_eq_some_iff.mp ho
    rcases Frame.enter_eq_ok hent with ⟨-, lead, hl, rfl⟩ | ⟨hs, -⟩
    · -- the first item of the frame, and what closes it, are its body
      obtain ⟨passed, ⟨before, text, more, hbefore, ht, hmore, rfl⟩, rfl⟩ := ih h
      cases hmore with
      | @cons _ _ tail more htail hmore =>
        obtain ⟨body, hbody, heq⟩ := htail.exists_body hl hbefore ht
        refine ⟨_, ⟨gap, _, more, hg, Frame.phrase_nonempty hbody, hmore, rfl⟩, ?_⟩
        calc gap ++ frame.opening :: (lead ++ (before ++ text ++ (tail ++ more) ++ rest))
            = gap ++ frame.opening :: (lead ++ before ++ text ++ tail) ++ more ++ rest := by simp
          _ = gap ++ (frame.opening :: body ++ [frame.closing]) ++ more ++ rest := by rw [heq]; simp
    · cases hs
  | case4 frames bytes b rest' hb frame ho rest'' hent ih =>
    obtain ⟨-, gap, hg, rfl⟩ := skipBlanks_eq_cons_iff.mp hb
    obtain rfl := Frame.opened?_eq_some_iff.mp ho
    rcases Frame.enter_eq_ok hent with ⟨hs, -⟩ | ⟨-, inner, hi, rfl⟩
    · cases hs
    · obtain ⟨more, hmore, rfl⟩ := ih h
      have ht : Value (frame.opening :: inner ++ [frame.closing]) := Frame.phrase_empty hi
      exact ⟨_, ⟨gap, _, more, hg, ht, hmore, rfl⟩, by simp⟩
  | case6 frames bytes b rest' hb _ rest'' hsc ih =>
    obtain ⟨-, gap, hg, rfl⟩ := skipBlanks_eq_cons_iff.mp hb
    obtain ⟨text, ht, rfl⟩ := value_of_skipScalar hsc
    obtain ⟨more, hmore, rfl⟩ := ih h
    exact ⟨_, ⟨gap, _, more, hg, ht, hmore, rfl⟩, by simp⟩
  | case7 =>
    cases h
    exact ⟨[], .nil, rfl⟩
  | case9 bytes frame frames rest' hadv ih =>
    obtain ⟨gap, hg, ⟨-, lead, hl, rfl⟩ | ⟨hs, -⟩⟩ := Frame.advance_eq_ok hadv
    · -- the item after the comma, and what closes the frame, are the items that follow
      obtain ⟨passed, ⟨before, text, more, hbefore, ht, hmore, rfl⟩, rfl⟩ := ih h
      cases hmore with
      | @cons _ _ tail more htail hmore =>
        obtain ⟨body, hbody, heq⟩ := htail.exists_body hl hbefore ht
        refine ⟨_, .cons (.item hg hbody) hmore, ?_⟩
        calc gap ++ comma :: lead ++ (before ++ text ++ (tail ++ more) ++ rest)
            = gap ++ comma :: (lead ++ before ++ text ++ tail) ++ more ++ rest := by simp
          _ = gap ++ comma :: body ++ [frame.closing] ++ more ++ rest := by rw [heq]; simp
    · cases hs
  | case10 bytes frame frames rest' hadv ih =>
    obtain ⟨gap, hg, ⟨hs, -⟩ | ⟨-, rfl⟩⟩ := Frame.advance_eq_ok hadv
    · cases hs
    · obtain ⟨more, hmore, rfl⟩ := ih h
      exact ⟨_, .cons (.last hg) hmore, by simp⟩

/-- What is passed over is a value, with blanks in front. -/
theorem exists_value_of_skipValue {e : Ending} {bytes rest : Bytes}
    (h : skipValue e bytes = .ok rest) :
    ∃ gap text, Blanks gap ∧ Value text ∧ bytes = gap ++ text ++ rest := by
  obtain ⟨passed, ⟨gap, text, more, hg, ht, hmore, rfl⟩, rfl⟩ := ahead_of_skipFrames h
  cases hmore
  exact ⟨gap, text, hg, ht, by simp⟩

/-! ### A value is passed over -/

theorem skipFrames_skipBlanks (e : Ending) (frames : List Frame) (bytes : Bytes) :
    skipFrames e .value frames (skipBlanks bytes) = skipFrames e .value frames bytes := by
  rw [skipFrames_value, skipFrames_value, skipBlanks_skipBlanks]

theorem skipFrames_gap {e : Ending} {gap : Bytes} (hg : Blanks gap) (frames : List Frame)
    (bytes : Bytes) : skipFrames e .value frames (gap ++ bytes) = skipFrames e .value frames bytes := by
  rw [skipFrames_value, skipFrames_value, skipBlanks_append hg]

theorem isBlank_of_isDigit {b : UInt8} (h : isDigit b = true) :
    isBlank b = false ∧ b ≠ closeBracket := by
  refine ⟨?_, ?_⟩
  · rw [Bool.eq_false_iff]
    intro hb
    simp only [isBlank, Bool.or_eq_true, beq_iff_eq, or_assoc] at hb
    rcases hb with rfl | rfl | rfl | rfl <;> cases h
  · rintro rfl
    cases h

/-- A digit is not any of the bytes that are none. -/
theorem beq_of_isDigit {d b : UInt8} (hd : isDigit d = true) (hb : isDigit b = false) :
    (d == b) = false := by
  refine beq_eq_false_iff_ne.mpr ?_
  rintro rfl
  rw [hd] at hb
  cases hb

theorem opened?_of_isDigit {d : UInt8} (h : isDigit d = true) : Frame.opened? d = none := by
  simp [Frame.opened?, beq_of_isDigit h (show isDigit openBracket = false from rfl),
    beq_of_isDigit h (show isDigit openBrace = false from rfl)]

theorem skipScalar_of_isDigit {e : Ending} {d : UInt8} (h : isDigit d = true) (bytes : Bytes) :
    skipScalar e d bytes = skipNumber e (d :: bytes) := by
  simp [skipScalar, beq_of_isDigit h (show isDigit letterN = false from rfl),
    beq_of_isDigit h (show isDigit letterT = false from rfl),
    beq_of_isDigit h (show isDigit letterF = false from rfl),
    beq_of_isDigit h (show isDigit minusSign = false from rfl), h]

/-- The first byte of a number. -/
theorem Magnitude.exists_cons {text : Bytes} (h : Magnitude text) :
    ∃ d more, text = d :: more ∧ isDigit d = true := by
  cases h with
  | parts hw =>
    cases hw with
    | zero => exact ⟨zeroDigit, _, rfl, rfl⟩
    | @digits d _ _ hds => exact ⟨d, _, rfl, hds.2 d List.mem_cons_self⟩

/-- A value begins with a byte that is no blank, and does not end a list. -/
theorem exists_cons_of_value {text : Bytes} (h : Value text) :
    ∃ b more, text = b :: more ∧ isBlank b = false ∧ b ≠ closeBracket := by
  cases h with
  | positive hm =>
    obtain ⟨d, more, rfl, hd⟩ := hm.exists_cons
    exact ⟨d, more, rfl, isBlank_of_isDigit hd⟩
  | _ => exact ⟨_, _, rfl, rfl, by decide⟩

theorem skipFrames_of_skipScalar {e : Ending} {b : UInt8} {bytes rest : Bytes}
    (hb : isBlank b = false) (ho : Frame.opened? b = none) (h : skipScalar e b bytes = .ok rest)
    (frames : List Frame) :
    skipFrames e .value frames (b :: bytes) = skipFrames e .after frames rest := by
  rw [skipFrames_value, skipBlanks_of_not_blank hb]
  simp only [ho, h]
  rfl

theorem skipFrames_of_enter {e : Ending} {frame : Frame} {bytes rest : Bytes} {stage : Stage}
    (h : frame.enter e bytes = .ok (stage, rest)) (frames : List Frame) :
    skipFrames e .value frames (frame.opening :: bytes) =
      skipFrames e stage (stage.frames frame frames) rest := by
  rw [skipFrames_value, skipBlanks_of_not_blank frame.isBlank_opening]
  simp only [Frame.opened?_eq_some_iff.mpr rfl, h]
  rfl

theorem skipFrames_of_advance {e : Ending} {frame : Frame} {bytes rest : Bytes} {stage : Stage}
    (h : frame.advance e bytes = .ok (stage, rest)) (frames : List Frame) :
    skipFrames e .after (frame :: frames) bytes =
      skipFrames e stage (stage.frames frame frames) rest := by
  rw [skipFrames_after, h]
  rfl

/-- A value is passed over, whatever the frames around it. -/
def PassesValue (e : Ending) (text : Bytes) : Prop :=
  ∀ frames rest, Ends e rest →
    skipFrames e .value frames (text ++ rest) = skipFrames e .after frames rest

/-- What stands between the brackets of a frame is passed over from its first value on, up to the
end of the frame. -/
def PassesBody (e : Ending) (frame : Frame) (body : Bytes) : Prop :=
  ∀ frames rest, ∃ mid, frame.toValue e (body ++ frame.closing :: rest) = .ok mid ∧
    skipFrames e .value (frame :: frames) mid = skipFrames e .after frames rest

/-- Each phrase is passed over. -/
def Passes (e : Ending) : Part → Bytes → Prop
  | .value => PassesValue e
  | .elements => PassesBody e .list
  | .members => PassesBody e .object

theorem passes_scalar {e : Ending} {b : UInt8} {text : Bytes} (hb : isBlank b = false)
    (ho : Frame.opened? b = none)
    (h : ∀ rest, Ends e rest → skipScalar e b (text ++ rest) = .ok rest) :
    PassesValue e (b :: text) := by
  intro frames rest hr
  exact skipFrames_of_skipScalar hb ho (h rest hr) frames

theorem ends_of_blanks {e : Ending} {gap : Bytes} {b : UInt8} (hg : Blanks gap)
    (hb : b = comma ∨ b = closeBracket ∨ b = closeBrace) (rest : Bytes) :
    Ends e (gap ++ b :: rest) := by
  cases gap with
  | nil => exact .inr hb
  | cons c gap => exact .inl (hg c List.mem_cons_self)

theorem ends_closing {e : Ending} {gap : Bytes} (hg : Blanks gap) (frame : Frame) (rest : Bytes) :
    Ends e (gap ++ frame.closing :: rest) := by
  refine ends_of_blanks hg ?_ rest
  cases frame with
  | list => exact .inr (.inl rfl)
  | object => exact .inr (.inr rfl)

/-- The last item, and the end of its frame. -/
theorem passesBody_last {e : Ending} {frame : Frame} {lead before text after : Bytes}
    (hl : ∀ bytes, frame.toValue e (lead ++ bytes) = .ok bytes) (hb : Blanks before)
    (ht : PassesValue e text) (ha : Blanks after) :
    PassesBody e frame (lead ++ before ++ text ++ after) := by
  intro frames rest
  refine ⟨before ++ (text ++ (after ++ frame.closing :: rest)), ?_, ?_⟩
  · rw [← hl]
    simp
  · rw [skipFrames_gap hb, ht _ _ (ends_closing ha frame rest),
      skipFrames_of_advance (Frame.advance_closing ha rest)]
    rfl

/-- An item, and those that follow. -/
theorem passesBody_item {e : Ending} {frame : Frame} {lead before text after more : Bytes}
    (hl : ∀ bytes, frame.toValue e (lead ++ bytes) = .ok bytes) (hb : Blanks before)
    (ht : PassesValue e text) (ha : Blanks after) (hm : PassesBody e frame more) :
    PassesBody e frame (lead ++ before ++ text ++ after ++ comma :: more) := by
  intro frames rest
  obtain ⟨mid, hmid, hrest⟩ := hm frames rest
  refine ⟨before ++ (text ++ (after ++ comma :: (more ++ frame.closing :: rest))), ?_, ?_⟩
  · rw [← hl]
    simp
  · rw [skipFrames_gap hb, ht _ _ (ends_of_blanks ha (.inl rfl) _),
      skipFrames_of_advance (Frame.advance_comma ha hmid)]
    exact hrest

theorem toValue_of_rawKey {e : Ending} {key : Bytes} (h : RawKey key) (bytes : Bytes) :
    Frame.object.toValue e (key ++ bytes) = .ok bytes :=
  skipKey_eq_ok_iff.mpr ⟨key, h, rfl⟩

/-- What stands between brackets does not begin with the closing one. -/
theorem exists_skipBlanks_of_phrase {frame : Frame} {body : Bytes} (h : Phrase frame.part body)
    (rest : Bytes) : ∃ b more, skipBlanks (body ++ rest) = b :: more ∧ (b == frame.closing) = false := by
  cases frame with
  | list =>
    have hvalue : ∀ {before text tail : Bytes}, Blanks before → Value text →
        body ++ rest = before ++ (text ++ tail) →
        ∃ b more, skipBlanks (body ++ rest) = b :: more ∧ (b == closeBracket) = false := by
      intro before text tail hb ht heq
      obtain ⟨b, more, rfl, hblank, hne⟩ := exists_cons_of_value ht
      rw [heq, List.cons_append]
      exact ⟨b, _, skipBlanks_gap hb hblank _, beq_eq_false_iff_ne.mpr hne⟩
    cases h with
    | lastElement hb ht => exact hvalue hb ht (by simp; rfl)
    | element hb ht => exact hvalue hb ht (by simp; rfl)
  | object =>
    have hkey : ∀ {key tail : Bytes}, RawKey key → body ++ rest = key ++ tail →
        ∃ b more, skipBlanks (body ++ rest) = b :: more ∧ (b == closeBrace) = false := by
      intro key tail hk heq
      cases hk with
      | quoted hb =>
        rw [heq]
        simp only [List.append_assoc, List.cons_append]
        exact ⟨quote, _, skipBlanks_gap hb rfl _, rfl⟩
    cases h with
    | lastMember hk => exact hkey hk (by simp; rfl)
    | member hk => exact hkey hk (by simp; rfl)

/-- A frame that is not empty is passed over. -/
theorem passesValue_of_body {e : Ending} {frame : Frame} {body : Bytes}
    (h : Phrase frame.part body) (hb : PassesBody e frame body) :
    PassesValue e (frame.opening :: body ++ [frame.closing]) := by
  intro frames rest _
  obtain ⟨b, more, hs, hc⟩ := exists_skipBlanks_of_phrase h (frame.closing :: rest)
  obtain ⟨mid, hmid, hrest⟩ := hb frames rest
  rw [← hrest, List.cons_append, List.cons_append, List.append_assoc]
  cases frame with
  | list =>
    have hent : Frame.list.enter e (body ++ closeBracket :: rest) = .ok (.value, b :: more) := by
      simp only [Frame.closing] at hs hc
      simp [Frame.enter, hs, hc, Frame.closing, Frame.toValue, bind, Except.bind]
    cases hmid
    -- the walk goes on behind the blanks, which makes no difference to it
    rw [← skipFrames_skipBlanks e (Frame.list :: frames), Frame.closing]
    rw [Frame.closing] at hs
    rw [hs]
    exact skipFrames_of_enter hent frames
  | object =>
    have hent : Frame.object.enter e (body ++ closeBrace :: rest) = .ok (.value, mid) := by
      simp only [Frame.closing] at hs hc
      rw [Frame.toValue, ← skipKey_skipBlanks] at hmid
      simp only [Frame.closing, hs] at hmid
      simp [Frame.enter, hs, hc, Frame.closing, Frame.toValue, hmid, bind, Except.bind]
    exact skipFrames_of_enter hent frames

theorem passesValue_empty {e : Ending} (frame : Frame) {gap : Bytes} (hg : Blanks gap) :
    PassesValue e (frame.opening :: gap ++ [frame.closing]) := by
  intro frames rest _
  rw [List.cons_append, List.cons_append, List.append_assoc]
  exact skipFrames_of_enter (Frame.enter_closing hg rest) frames

theorem passes_of_phrase {e : Ending} {part : Part} {text : Bytes} (h : Phrase part text) :
    Passes e part text := by
  induction h with
  | null | true | false =>
    refine passes_scalar rfl rfl ?_
    intro rest _
    exact readLetters_eq_ok_iff.mpr rfl
  | @positive text hm =>
    obtain ⟨d, more, rfl, hd⟩ := hm.exists_cons
    refine passes_scalar (isBlank_of_isDigit hd).1 (opened?_of_isDigit hd) ?_
    intro rest hr
    rw [skipScalar_of_isDigit hd]
    exact skipNumber_of_magnitude hm hr
  | negative hm =>
    refine passes_scalar rfl rfl ?_
    intro rest hr
    exact skipNumber_of_magnitude hm hr
  | string hb =>
    refine passes_scalar rfl rfl ?_
    intro rest _
    exact skipText_eq_ok_iff.mpr ⟨_, hb, List.append_assoc _ [quote] rest⟩
  | emptyList hg => exact passesValue_empty .list hg
  | list h ih => exact @passesValue_of_body e .list _ h ih
  | emptyObject hg => exact passesValue_empty .object hg
  | object h ih => exact @passesValue_of_body e .object _ h ih
  | lastElement hb _ ha ih => exact @passesBody_last e .list [] _ _ _ (fun _ => rfl) hb ih ha
  | element hb _ ha _ ih ihm =>
    exact @passesBody_item e .list [] _ _ _ _ (fun _ => rfl) hb ih ha ihm
  | lastMember hk hb _ ha ih => exact passesBody_last (toValue_of_rawKey hk) hb ih ha
  | member hk hb _ ha _ ih ihm => exact passesBody_item (toValue_of_rawKey hk) hb ih ha ihm

/-- A value is passed over, with blanks in front, if nothing follows that could be more of it. -/
theorem skipValue_of_value {e : Ending} {gap text rest : Bytes} (hg : Blanks gap) (ht : Value text)
    (hr : Ends e rest) : skipValue e (gap ++ text ++ rest) = .ok rest := by
  have h : PassesValue e text := passes_of_phrase ht
  rw [skipValue, List.append_assoc, skipFrames_gap hg, h [] rest hr, skipFrames]

end BuildFleet.Json
