import BuildFleet.Json.Number
import BuildFleet.Json.Simulation.Escapes

/-!
# JSON — slices and streams, and the bytes ahead

Both ways to keep the bytes are simulated by the bytes ahead, and strings are read from both as from those.

* `Slice.simulation`: the bytes ahead are those from the index on.  A scan takes as many bytes at once as
  stand for themselves in a string.
* `Stream.simulation`: the bytes ahead are the one that is held back and those still to be delivered.
-/

namespace BuildFleet.Json

/-- What relates the states of a source to the bytes ahead. -/
structure SourceSimulation (σ : Type) [Source σ] (i : Input) extends Simulation σ i where
  text {s : σ} {ahead : Bytes} : At s ahead false →
    Follows i At (Given (toSimulation.Took false)) (readText i.ending ahead) (Source.text s)
  skipText {s : σ} {ahead : Bytes} : At s ahead false →
    Follows i At (Given (toSimulation.Passed false)) (skipText i.ending ahead) (Source.skipText s)

/-! ### Texts in memory -/

/-- A part of a string in which each byte stands for itself. -/
theorem readTextBytes_plain (e : Ending) (done bytes : Bytes) :
    readTextBytes e done bytes =
      readTextBytes e ((bytes.takeWhile isPlain).reverse ++ done) (bytes.dropWhile isPlain) := by
  induction bytes generalizing done with
  | nil => rfl
  | cons b rest ih =>
    by_cases hb : isPlain b = true
    · have hplain := hb
      simp only [isPlain, Bool.not_eq_true', Bool.or_eq_false_iff] at hplain
      obtain ⟨⟨hquote, hescape⟩, hcontrol⟩ := hplain
      rw [readTextBytes_cons, hquote, hescape, hcontrol, List.takeWhile_cons_of_pos hb,
        List.dropWhile_cons_of_pos hb, List.reverse_cons, List.append_assoc]
      exact ih (b :: done)
    · rw [List.takeWhile_cons_of_neg hb, List.dropWhile_cons_of_neg hb]
      rfl

theorem skipText_plain (e : Ending) (bytes : Bytes) :
    skipText e bytes = skipText e (bytes.dropWhile isPlain) := by
  induction bytes with
  | nil => rfl
  | cons b rest ih =>
    by_cases hb : isPlain b = true
    · have hplain := hb
      simp only [isPlain, Bool.not_eq_true', Bool.or_eq_false_iff] at hplain
      obtain ⟨⟨hquote, hescape⟩, hcontrol⟩ := hplain
      rw [skipText_cons, hquote, hescape, hcontrol, List.dropWhile_cons_of_pos hb]
      exact ih
    · rw [List.dropWhile_cons_of_neg hb]

namespace Slice

/-- A text in memory, with these bytes ahead of the index. -/
structure At (text : Bytes) (s : Slice) (ahead : Bytes) : Prop where
  holds : s.bytes.toList = text
  within : s.index ≤ text.length
  ahead : text.drop s.index = ahead

variable {text ahead : Bytes} {s : Slice}

namespace At

theorem start (text : Bytes) : At text (.start text) text :=
  ⟨rfl, Nat.zero_le _, rfl⟩

theorem length (h : At text s ahead) : text.length - ahead.length = s.index := by
  rw [← h.ahead, List.length_drop]
  have hwithin := h.within
  omega

theorem length_le (h : At text s ahead) : ahead.length ≤ text.length := by
  rw [← h.ahead, List.length_drop]
  exact Nat.sub_le _ _

theorem size (h : At text s ahead) : s.bytes.size = text.length := by
  rw [← h.holds, Array.length_toList]

theorem next? (h : At text s ahead) : s.next? = ahead.head? := by
  rw [Slice.next?, ← h.ahead, List.head?_drop, ← h.holds, Array.getElem?_toList]

theorem forward (h : At text s ahead) {n : Nat} (hn : n ≤ ahead.length) :
    At text { s with index := s.index + n } (ahead.drop n) where
  holds := h.holds
  within := by
    have hlength := h.length
    have hle := h.length_le
    show s.index + n ≤ _
    omega
  ahead := by rw [← h.ahead, List.drop_drop]

theorem skip {b : UInt8} {rest : Bytes} (h : At text s (b :: rest)) : At text (Cursor.skip s) rest :=
  h.forward (n := 1) (Nat.le_add_left _ _)

/-- The place behind so many bytes. -/
theorem placeAt (h : At text s ahead) (index : Nat) :
    s.placeAt index = Place.after (text.take index) := by
  rw [Slice.placeAt, h.holds]

theorem place (h : At text s ahead) :
    (⟨text, .text, .closed⟩ : Input).place? (.consumed ahead.length) = some (s.placeAt s.index) := by
  show some (Place.after (text.take (text.length - _))) = _
  rw [h.length, h.placeAt]

end At

theorem stop_eq (bytes : Array UInt8) (index : Nat) :
    stop bytes index = index + (bytes.toList.drop index).findIdx fun b => !isPlain b := by
  fun_induction stop bytes index with
  | case1 index h hb ih =>
    rw [ih, List.drop_eq_getElem_cons (i := index) (by simpa using h), Array.getElem_toList,
      List.findIdx_cons, hb]
    exact Nat.add_right_comm ..
  | case2 index h hb =>
    rw [List.drop_eq_getElem_cons (i := index) (by simpa using h), Array.getElem_toList,
      List.findIdx_cons, Bool.eq_false_iff.mpr hb]
    rfl
  | case3 index h =>
    rw [List.drop_eq_nil_of_le (by simpa using h)]
    rfl

namespace At

/-- A scan takes the bytes that stand for themselves. -/
theorem scan (h : At text s ahead) : At text s.scan (ahead.dropWhile isPlain) := by
  have hforward := h.forward (n := ahead.findIdx fun b => !isPlain b) List.findIdx_le_length
  rw [Slice.scan, stop_eq, h.holds, h.ahead, List.dropWhile_eq_drop_findIdx_not]
  exact hforward

theorem scanned (h : At text s ahead) :
    (s.scan.bytes.extract s.index s.scan.index).toList = ahead.takeWhile isPlain := by
  rw [Slice.scan, stop_eq, h.holds, h.ahead, Array.toList_extract, h.holds, List.extract_eq_take_drop,
    h.ahead, Nat.add_sub_cancel_left, List.takeWhile_eq_take_findIdx_not]

end At

/-- The byte behind those that stand for themselves does not. -/
theorem of_dropWhile_isPlain {b : UInt8} {rest : Bytes} (h : ahead.dropWhile isPlain = b :: rest) :
    rest.length < ahead.length ∧ isPlain b = false := by
  refine ⟨?_, by simpa [h] using List.head?_dropWhile_not isPlain ahead⟩
  have hle := length_dropWhile_le isPlain ahead
  rw [h] at hle
  exact hle

theorem At.get (h : At text s ahead) (n : Nat) : s.bytes[s.index + n]? = ahead[n]? := by
  rw [← h.ahead, List.getElem?_drop, ← h.holds, Array.getElem?_toList]

/-- Four digits that are read at once are the next four bytes, and if there are fewer the text has ended
behind them. -/
theorem At.codeUnit (h : At text s ahead) :
    Follows (⟨text, .text, .closed⟩ : Input) (fun s ahead _ => At text s ahead)
      (Given fun unit w s => unit = w.1 ∧ At text s w.2) (readCodeUnit .closed ahead)
      (Cursor.codeUnit s) := by
  have hends : At text { s with index := s.bytes.size } [] :=
    ⟨h.holds, Nat.le_of_eq h.size, by rw [h.size, List.drop_length]⟩
  have h0 : s.bytes[s.index]? = ahead[0]? := h.get 0
  have h1 := h.get 1
  have h2 := h.get 2
  have h3 := h.get 3
  match ahead with
  | a :: b :: c :: d :: rest =>
    have hforward : At text { s with index := s.index + 4 } rest :=
      h.forward (n := 4) (Nat.le_add_left 4 rest.length)
    simp only [Cursor.codeUnit, h0, h1, h2, h3, List.getElem?_cons_succ, List.getElem?_cons_zero]
    rw [readCodeUnit]
    cases codeUnit? a b c d with
    | some unit => exact .ok ⟨(unit, rest), rfl, rfl, hforward⟩
    | none => exact .placed hforward.place
  | [] | [_] | [_, _] | [_, _, _] =>
    simp only [Cursor.codeUnit, h0, h1, h2, h3, List.getElem?_cons_succ, List.getElem?_cons_zero,
      List.getElem?_nil]
    exact .placed hends.place

/-- The bytes from the index on are ahead.  Whether one has been looked at leaves no trace. -/
def simulation (text : Bytes) : Simulation Slice ⟨text, .text, .closed⟩ where
  At s ahead _ := At text s ahead
  atEnd h := h
  place h := h.place
  placeLooked h := h.place
  peekPlace {s ahead} h := by
    show some (Place.after (text.take (text.length - _))) = some (Slice.placeAt _ _)
    have hindex : text.length - (ahead.length - 1) = min s.bytes.size (s.index + 1) := by
      have hlength := h.length
      have hle := h.length_le
      rw [h.size]
      omega
    rw [hindex, h.placeAt]
  peek {s ahead looked} h := by
    show Reaches _ _ _ _ (EStateM.Result.ok s.next? s)
    rw [h.next?]
    exact .ok (fun _ => rfl) h
  next {s b rest looked} h := by
    refine ⟨{ s with index := s.index + 1 }, ?_, h.skip⟩
    simp only [Cursor.next, h.next?, List.head?_cons]
  nextAtEnd {s looked} h := by
    have hnext : Cursor.next s = .ok none s := by
      simp only [Cursor.next, h.next?, List.head?_nil]
    rw [hnext]
    exact .ok (fun _ => rfl) h
  skip h := h.skip
  codeUnit h := h.codeUnit
  left {s ahead looked} h := by
    show _ ≤ s.bytes.size - s.index
    have hlength := h.length
    have hle := h.length_le
    rw [h.size]
    omega

theorem isPlain_eq_false {b : UInt8} (h : isPlain b = false) (hquote : (b == quote) ≠ true)
    (hescape : (b == backslash) ≠ true) : isControl b = true := by
  rw [isPlain, Bool.eq_false_iff.mpr hquote, Bool.eq_false_iff.mpr hescape] at h
  simpa using h

/-- A part that is scanned, with an escape behind it, is read byte by byte. -/
theorem follows_textTurn (done : Bytes) (h : At text s ahead) :
    Follows ⟨text, .text, .closed⟩ (simulation text).At
      (Turned (fun _ => At text) (fun done => readTextBytes .closed done.reverse)
        ((simulation text).Took false) ahead)
      (readTextBytes .closed done.reverse ahead) (textTurn done s) := by
  have hscan := h.scan
  rw [readTextBytes_plain, textTurn]
  dsimp only
  rw [h.scanned, hscan.next?, ← List.reverse_append]
  cases hrest : ahead.dropWhile isPlain with
  | nil =>
    rw [hrest] at hscan
    rw [readTextBytes_nil]
    exact .placed hscan.place
  | cons b rest =>
    rw [hrest] at hscan
    obtain ⟨hshorter, hb⟩ := of_dropWhile_isPlain hrest
    rw [readTextBytes_cons]
    dsimp only [List.head?_cons]
    split
    · refine .ok ⟨(done ++ ahead.takeWhile isPlain, rest), ?_, rfl, hscan.skip⟩
      rw [List.reverse_reverse]
    · rename_i hquote
      split
      · refine ((simulation text).follows_escape hscan.skip).bind fun bytes w s hw hat => ?_
        obtain ⟨rfl, hat⟩ := hat
        refine .ok ⟨w.2, hat, Nat.lt_trans (length_of_readEscape hw) hshorter, ?_⟩
        rw [← List.reverse_append, List.append_assoc]
      · rename_i hescape
        rw [if_pos (isPlain_eq_false hb hquote hescape)]
        exact .placed hscan.skip.place

theorem follows_skipTurn (h : At text s ahead) :
    Follows ⟨text, .text, .closed⟩ (simulation text).At
      (Turned (fun _ => At text) (fun () => skipText .closed) ((simulation text).Passed false) ahead)
      (skipText .closed ahead) (skipTurn () s) := by
  have hscan := h.scan
  rw [skipText_plain, skipTurn, hscan.next?]
  cases hrest : ahead.dropWhile isPlain with
  | nil =>
    rw [hrest] at hscan
    rw [skipText_nil]
    exact .placed hscan.place
  | cons b rest =>
    rw [hrest] at hscan
    obtain ⟨hshorter, hb⟩ := of_dropWhile_isPlain hrest
    rw [skipText_cons]
    dsimp only [List.head?_cons]
    split
    · exact .ok ⟨rest, rfl, hscan.skip⟩
    · rename_i hquote
      split
      · refine ((simulation text).follows_skipEscape hscan.skip).bind fun _ rest' s hw hat => ?_
        exact .ok ⟨rest', hat, Nat.lt_trans (length_of_skipEscape hw) hshorter, rfl⟩
      · rename_i hescape
        rw [if_pos (isPlain_eq_false hb hquote hescape)]
        exact .placed hscan.place

/-- Strings in memory are read as the bytes ahead say. -/
def sourceSimulation (text : Bytes) : SourceSimulation Slice ⟨text, .text, .closed⟩ where
  toSimulation := simulation text
  text {s ahead} h := by
    have hbytes := (simulation text).follows_loop (b := []) (fun _ _ _ hat => ⟨false, hat⟩)
      (fun done _ _ hat => follows_textTurn done hat) h
    refine hbytes.bind fun bytes w s _ hw => ?_
    obtain ⟨rfl, hat⟩ := hw
    exact (simulation text).follows_decoded hat _
  skipText h :=
    (simulation text).follows_loop (I := fun _ => At text) (F := fun () => Json.skipText .closed)
      (fun _ _ _ hat => ⟨false, hat⟩) (fun () _ _ hat => follows_skipTurn hat) h

end Slice

/-! ### Streams -/

theorem Place.after_concat (counted : Bytes) (b : UInt8) :
    Place.after (counted ++ [b]) = (Place.after counted).step b := by
  rw [Place.after, Place.after, Place.step, List.count_append, List.reverse_append]
  by_cases hb : b = newline
  · subst hb
    simp [Nat.add_assoc]
  · simp [hb]

namespace Stream

variable {bytes ahead unread : Bytes} {ending : Ending} {s : Stream} {b : UInt8} {looked : Bool}

/-- A stream that has delivered some of the bytes, and may hold the last of them back. -/
inductive At (bytes : Bytes) (ending : Ending) : Stream → Bytes → Bool → Prop where
  | free {taken unread : Bytes} {looked : Bool} : taken ++ unread = bytes → (looked = true → unread = []) →
      At bytes ending ⟨unread, ending, none, .after taken⟩ unread looked
  | held {taken unread : Bytes} {b : UInt8} : taken ++ unread = bytes →
      At bytes ending ⟨unread, ending, some b, .after taken⟩ (b :: unread) true

/-- The bytes that are delivered are counted. -/
theorem take_delivered {taken unread : Bytes} (h : taken ++ unread = bytes) :
    bytes.take (bytes.length - unread.length) = taken := by
  rw [← h, List.length_append, Nat.add_sub_cancel]
  exact List.take_left

/-- One more byte is delivered. -/
theorem deliver_cons (ending : Ending) (held : Option UInt8) {taken : Bytes}
    (h : taken ++ b :: unread = bytes) :
    deliver ⟨b :: unread, ending, held, .after taken⟩ =
        .ok (some b) ⟨unread, ending, held, .after (taken ++ [b])⟩ ∧
      taken ++ [b] ++ unread = bytes := by
  rw [Place.after_concat, List.append_assoc]
  exact ⟨rfl, h⟩

namespace At

theorem start (bytes : Bytes) (ending : Ending) : At bytes ending (.start bytes ending) bytes false :=
  .free (List.nil_append bytes) fun h => absurd h Bool.false_ne_true

theorem next_cons (h : At bytes ending s (b :: unread) looked) :
    ∃ s', next s = .ok (some b) s' ∧ At bytes ending s' unread false := by
  cases h with
  | held h => exact ⟨_, rfl, .free h (fun h => absurd h Bool.false_ne_true)⟩
  | free h =>
    obtain ⟨hdeliver, h⟩ := deliver_cons ending none h
    exact ⟨_, hdeliver, .free h (fun h => absurd h Bool.false_ne_true)⟩

theorem next_nil (h : At bytes ending s [] looked) :
    Reaches ⟨bytes, .stream, ending⟩ (At bytes ending) none [] (next s) := by
  cases h with
  | free h =>
    cases ending with
    | closed => exact .ok (fun _ => rfl) (.free h (fun _ => rfl))
    | failing error => exact .failed rfl rfl (.free h (fun h => absurd h Bool.false_ne_true))

theorem atEnd {looked' : Bool} (h : At bytes ending s [] looked) : At bytes ending s [] looked' := by
  cases h with
  | free h => exact .free h (fun _ => rfl)

theorem digit_cons (h : At bytes ending s (b :: unread) looked) :
    ∃ s', digit s = .ok b s' ∧ At bytes ending s' unread false := by
  obtain ⟨s', hnext, hat⟩ := h.next_cons
  exact ⟨s', by rw [digit, hnext], hat⟩

theorem place (h : At bytes ending s ahead false) :
    (⟨bytes, .stream, ending⟩ : Input).place? (.consumed ahead.length) = some s.place := by
  cases h with
  | free h => exact congrArg (fun taken => some (Place.after taken)) (take_delivered h)

/-- A byte that has been looked at is delivered, and counts. -/
theorem placeLooked (h : At bytes ending s ahead true) :
    (⟨bytes, .stream, ending⟩ : Input).place? (.looked ahead.length) = some s.place := by
  cases h with
  | free h hnil =>
    obtain rfl := hnil rfl
    exact congrArg (fun taken => some (Place.after taken)) (take_delivered h)
  | held h => exact congrArg (fun taken => some (Place.after taken)) (take_delivered h)

theorem follows_digit_nil {γ α : Type} {leaf : Except Fault γ → α → Stream → Prop}
    {q : UInt8 → Parser Stream α} (h : At bytes ending s [] looked) :
    Follows ⟨bytes, .stream, ending⟩ (At bytes ending) leaf (.error (ending.fault (.ended .string)))
      ((digit >>= q) s) := by
  have hnext := h.next_nil
  show Follows _ _ _ _ (EStateM.bind digit q s)
  rw [EStateM.bind, digit]
  generalize next s = r at hnext
  cases hnext with
  | ok hclosed hat =>
    have hending : ending = .closed := hclosed rfl
    subst hending
    exact .placed hat.atEnd.place
  | failed _ herror hat => exact .of_fails (.fault _) herror hat

theorem codeUnit (h : At bytes ending s ahead false) :
    Follows ⟨bytes, .stream, ending⟩ (At bytes ending)
      (Given fun unit w s => unit = w.1 ∧ At bytes ending s w.2 false) (readCodeUnit ending ahead)
      (Cursor.codeUnit s) := by
  show Follows _ _ _ _ ((digit >>= fun a => digit >>= fun b => digit >>= fun c => digit >>= fun d => _) s)
  match ahead with
  | [] => exact h.follows_digit_nil
  | [a] =>
    obtain ⟨s, ha, h⟩ := h.digit_cons
    rw [Parser.bind_of_ok ha]
    exact h.follows_digit_nil
  | [a, b] =>
    obtain ⟨s, ha, h⟩ := h.digit_cons
    obtain ⟨s, hb, h⟩ := h.digit_cons
    rw [Parser.bind_of_ok ha, Parser.bind_of_ok hb]
    exact h.follows_digit_nil
  | [a, b, c] =>
    obtain ⟨s, ha, h⟩ := h.digit_cons
    obtain ⟨s, hb, h⟩ := h.digit_cons
    obtain ⟨s, hc, h⟩ := h.digit_cons
    rw [Parser.bind_of_ok ha, Parser.bind_of_ok hb, Parser.bind_of_ok hc]
    exact h.follows_digit_nil
  | a :: b :: c :: d :: rest =>
    obtain ⟨s, ha, h⟩ := h.digit_cons
    obtain ⟨s, hb, h⟩ := h.digit_cons
    obtain ⟨s, hc, h⟩ := h.digit_cons
    obtain ⟨s, hd, h⟩ := h.digit_cons
    rw [Parser.bind_of_ok ha, Parser.bind_of_ok hb, Parser.bind_of_ok hc, Parser.bind_of_ok hd,
      readCodeUnit]
    cases codeUnit? a b c d with
    | some unit => exact .ok ⟨(unit, rest), rfl, rfl, h⟩
    | none => exact .placed h.place

end At

/-- The byte that is held back is ahead, and those that are still to be delivered. -/
def simulation (bytes : Bytes) (ending : Ending) : Simulation Stream ⟨bytes, .stream, ending⟩ where
  At := At bytes ending
  atEnd h := h.atEnd
  place h := h.place
  placeLooked h := h.placeLooked
  peekPlace h := h.placeLooked
  peek {s ahead looked} h := by
    cases h with
    | held h => exact .ok (fun h => absurd h (List.cons_ne_nil _ _)) (.held h)
    | @free taken _ _ h =>
      cases ahead with
      | cons b unread =>
        have hplace := Place.after_concat taken b
        rw [← List.singleton_append, ← List.append_assoc] at h
        exact .ok (fun h => absurd h (List.cons_ne_nil _ _)) (hplace ▸ .held h)
      | nil =>
        cases ending with
        | closed => exact .ok (fun _ => rfl) (.free h (fun _ => rfl))
        | failing error => exact .failed rfl rfl (.free h (fun h => absurd h Bool.false_ne_true))
  next h := h.next_cons
  nextAtEnd h := h.next_nil
  skip h := by
    cases h with
    | held h => exact .free h (fun h => absurd h Bool.false_ne_true)
    | free h hnil => exact absurd (hnil rfl) (List.cons_ne_nil _ _)
  codeUnit h := h.codeUnit
  left {s ahead looked} h := by
    cases h with
    | free h => exact Nat.le_refl _
    | held h => exact Nat.le_refl _

theorem follows_textTurn (done : Bytes) (h : At bytes ending s ahead false) :
    Follows ⟨bytes, .stream, ending⟩ (simulation bytes ending).At
      (Turned (fun _ s ahead => At bytes ending s ahead false) (readTextBytes ending)
        ((simulation bytes ending).Took false) ahead)
      (readTextBytes ending done ahead) (textTurn done s) := by
  cases ahead with
  | nil =>
    rw [readTextBytes_nil]
    exact (simulation bytes ending).follows_nextOr_nil h _
  | cons b rest =>
    obtain ⟨s', hnext, hat⟩ := (simulation bytes ending).nextOr_cons h (.ended .string)
    rw [textTurn, Parser.bind_of_ok hnext, readTextBytes_cons]
    split
    · exact .ok ((simulation bytes ending).took hat done.reverse)
    split
    · refine ((simulation bytes ending).follows_escape hat).bind fun decoded w s hw hat => ?_
      obtain ⟨rfl, hat⟩ := hat
      exact .ok ⟨w.2, hat, Nat.lt_succ_of_lt (length_of_readEscape hw), rfl⟩
    split
    · exact (simulation bytes ending).follows_fail hat .controlCharacter
    · exact .ok ⟨rest, hat, Nat.lt_succ_self _, rfl⟩

theorem follows_skipTurn (h : At bytes ending s ahead false) :
    Follows ⟨bytes, .stream, ending⟩ (simulation bytes ending).At
      (Turned (fun _ s ahead => At bytes ending s ahead false) (fun () => skipText ending)
        ((simulation bytes ending).Passed false) ahead)
      (skipText ending ahead) (skipTurn () s) := by
  cases ahead with
  | nil =>
    rw [skipText_nil]
    exact (simulation bytes ending).follows_nextOr_nil h _
  | cons b rest =>
    obtain ⟨s', hnext, hat⟩ := (simulation bytes ending).nextOr_cons h (.ended .string)
    rw [skipTurn, Parser.bind_of_ok hnext, skipText_cons]
    split
    · exact .ok ((simulation bytes ending).passed hat)
    split
    · refine ((simulation bytes ending).follows_skipEscape hat).bind fun _ rest' s hw hat => ?_
      exact .ok ⟨rest', hat, Nat.lt_succ_of_lt (length_of_skipEscape hw), rfl⟩
    split
    -- the control character has been taken, and counts as if it had only been looked at
    · have hplace := hat.place
      exact .placed hplace
    · exact .ok ⟨rest, hat, Nat.lt_succ_self _, rfl⟩

/-- Strings of a stream are read as the bytes ahead say. -/
def sourceSimulation (bytes : Bytes) (ending : Ending) :
    SourceSimulation Stream ⟨bytes, .stream, ending⟩ where
  toSimulation := simulation bytes ending
  text h := by
    have hbytes := (simulation bytes ending).follows_loop (b := []) (fun _ _ _ hat => ⟨false, hat⟩)
      (fun done _ _ hat => follows_textTurn done hat) h
    refine hbytes.bind fun bytes w s _ hw => ?_
    obtain ⟨rfl, hat⟩ := hw
    exact (simulation _ ending).follows_decoded hat _
  skipText h :=
    (simulation bytes ending).follows_loop (I := fun _ s ahead => At bytes ending s ahead false)
      (F := fun () => Json.skipText ending) (fun _ _ _ hat => ⟨false, hat⟩)
      (fun () _ _ hat => follows_skipTurn hat) h

end Stream

end BuildFleet.Json
