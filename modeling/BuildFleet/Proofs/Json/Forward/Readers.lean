import BuildFleet.Proofs.Json.Forward.Skipping
import BuildFleet.Proofs.Json.Records

/-!
# JSON — readers from front to back

A reader goes from front to back (`Reader.Forward`) if the byte it begins with decides how it goes on,
and the steps behind that byte go from front to back.

* `Reader.string_forward`, `Reader.list_forward`, `Record.reader_forward` and so on: readers do, if those
  of their parts do.
* `Reader.Forward.parse_cut`: a whole input that is cut off anywhere but in the blanks at its end is too
  short.
-/

namespace BuildFleet.Json

variable {α β : Type} {bytes : Bytes}

/-! ### Values without parts -/

/-- The reader goes by the first byte after the blanks, and on from there from front to back. -/
structure Reader.Forward (r : Reader α) : Prop where
  blanks : ∀ bytes, skipBlanks bytes = [] → EndsEarly (r.read .closed bytes)
  skips : ∀ bytes, r.read .closed bytes = r.read .closed (skipBlanks bytes)
  cons : ∀ {b} rest, isBlank b = false → Json.Forward (fun rest => r.read .closed (b :: rest)) rest

namespace Reader

variable {r : Reader α}

theorem Forward.read (h : r.Forward) (bytes : Bytes) : Json.Forward (r.read .closed) bytes := by
  refine Json.Forward.blanks (fun b rest => r.read .closed (b :: rest)) h.blanks
    (fun bytes b rest hb => ?_) fun b rest hb => h.cons rest (skipBlanks_eq_cons_iff.mp hb).1
  rw [h.skips, hb]

/-- A reader that decides by the first byte. -/
theorem forward_of_readValue {read : UInt8 → Bytes → Except Fault (α × Bytes)}
    (hr : ∀ bytes, r.read .closed bytes = readValue .closed bytes read)
    (hread : ∀ b rest, Json.Forward (read b) rest) : r.Forward where
  blanks bytes h := by
    rw [hr, readValue, h]
    exact endsEarly_closed .value
  skips bytes := by
    rw [hr, hr, readValue, readValue, skipBlanks_skipBlanks]
  cons {b} rest hb := by
    refine (hread b rest).congr fun rest => ?_
    rw [hr, readValue, skipBlanks_of_not_blank hb]

theorem Forward.map (h : r.Forward) (f : α → β) : (r.map f).Forward where
  blanks bytes hb := (h.blanks bytes hb).bind _
  skips bytes := congrArg (· >>= _) (h.skips bytes)
  cons rest hb := (h.cons rest hb).bind fun v rest' _ => .ok (f v) rest'

theorem string_forward : string.Forward := by
  refine forward_of_readValue (fun _ => rfl) fun b rest => ?_
  exact .ite (fun _ => forward_readText rest) fun _ => .error _ rest

theorem boolean_forward : boolean.Forward := by
  refine forward_of_readValue (fun _ => rfl) fun b rest => ?_
  refine .ite (fun _ => ?_) fun _ => .ite (fun _ => ?_) fun _ => .error _ rest
  · exact forward_readLetters fun rest' _ => .ok true rest'
  · exact forward_readLetters fun rest' _ => .ok false rest'

theorem optional_forward (h : r.Forward) : r.optional.Forward where
  blanks bytes hb := by
    simp only [optional, hb]
    exact endsEarly_closed .value
  skips bytes := by
    simp only [optional, skipBlanks_skipBlanks]
  cons {b} rest hb := by
    simp only [optional, skipBlanks_of_not_blank hb]
    refine .ite (fun _ => forward_readLetters fun rest' _ => .ok none rest') fun _ => ?_
    exact (h.cons rest hb).bind fun v rest' _ => .ok (some v) rest'

end Reader

/-! ### Lists -/

theorem endsEarly_nextElement {first : Bool} (h : skipBlanks bytes = []) :
    EndsEarly (nextElement .closed first bytes) := by
  rw [nextElement, h]
  exact endsEarly_closed .list

theorem not_beginsNumber_closing {b : UInt8} (h : b = closeBracket ∨ b = closeBrace) :
    ¬ BeginsNumber b := by
  rcases h with rfl | rfl <;> rintro (h | h) <;> cases h

theorem endsEarly_nextElement_comma (h : skipBlanks bytes = []) :
    EndsEarly (nextElement .closed false (comma :: bytes)) := by
  rw [nextElement, skipBlanks_of_not_blank rfl]
  simp only [h]
  exact endsEarly_closed .value

theorem forward_nextElement (first : Bool) (bytes : Bytes) :
    Forward (nextElement .closed first) bytes := by
  cases h : nextElement .closed first bytes with
  | error fault => exact .of_error h
  | ok next =>
    obtain ⟨stage, rest⟩ := next
    cases stage with
    | after =>
      obtain ⟨gap, rest, hg, rfl, rfl⟩ := nextElement_after_iff.mp h
      refine .peek_byte (v := Stage.after) (skipBlanks_gap hg rfl rest)
        (not_beginsNumber_closing (.inl rfl)) (fun _ => endsEarly_nextElement) fun bytes rest hb => ?_
      obtain ⟨-, gap, hg, hbytes⟩ := skipBlanks_eq_cons_iff.mp hb
      exact nextElement_after_iff.mpr ⟨gap, rest, hg, rfl, hbytes⟩
    | value =>
      obtain ⟨separator, b, rest, hs, rfl, hblank, hc, rfl⟩ := nextElement_value_iff.mp h
      have hc' : ¬ (b == closeBracket) = true := fun h => hc (eq_of_beq h)
      cases hs with
      | first hg =>
        refine .peek_value (v := Stage.value) (skipBlanks_gap hg hblank rest) hc'
          (fun _ => endsEarly_nextElement) fun bytes c rest hb hc => ?_
        simp only [nextElement, hb, if_neg hc]
        rfl
      | @next before after hg hg' =>
        -- the comma is taken, and the element behind it is only looked at
        rw [List.append_assoc, List.cons_append]
        have hcomma := skipBlanks_gap hg (show isBlank comma = false from rfl)
        refine .gap (hcomma (after ++ b :: rest)) (fun _ => endsEarly_nextElement)
          (g := fun rest => nextElement .closed false (comma :: rest)) (fun bytes rest hb => ?_) ?_
        · simp only [nextElement, hb, skipBlanks_of_not_blank (show isBlank comma = false from rfl)]
        · refine .peek_value (v := Stage.value) (skipBlanks_gap hg' hblank rest) hc'
            (fun _ => endsEarly_nextElement_comma) fun bytes c rest hb hc => ?_
          rw [nextElement, skipBlanks_of_not_blank rfl]
          simp only [hb, if_neg hc]
          rfl

theorem forward_closeList {k : Bytes → Except Fault (β × Bytes)} (hk : ∀ rest, Forward k rest) :
    Forward (fun bytes => closeList .closed bytes >>= k) bytes := by
  cases h : closeList .closed bytes with
  | error fault => exact .of_error (by rw [h]; rfl)
  | ok rest =>
    obtain ⟨gap, hg, rfl⟩ := closeList_eq_ok_iff.mp h
    refine .gap (skipBlanks_gap hg rfl rest) (fun bytes hb => ?_) (fun bytes rest hb => ?_) (hk rest)
    · rw [closeList, hb]
      exact (endsEarly_closed .list).bind k
    · simp only [closeList, hb]
      rfl

theorem forward_readElements {r : Reader α} (h : r.Forward) (first : Bool) (done : List α)
    (bytes : Bytes) : Forward (readElements r .closed first done) bytes := by
  induction hn : bytes.length using Nat.strongRecOn generalizing first done bytes with
  | ind n ih =>
    subst hn
    refine Forward.congr (readElements_eq r .closed first done) ?_
    refine (forward_nextElement first bytes).bind fun stage rest hnext => ?_
    cases stage with
    | after => exact .ok done.reverse rest
    | value =>
      refine (h.read rest).bind fun v rest' hread => ?_
      have hl := Nat.lt_of_lt_of_le (r.shrinks hread) (length_of_nextElement hnext)
      exact ih _ hl false (v :: done) rest' rfl

theorem Reader.list_forward {r : Reader α} (h : r.Forward) : r.list.Forward := by
  refine forward_of_readValue (fun _ => rfl) fun b rest => ?_
  refine .ite (fun _ => ?_) fun _ => .error _ rest
  refine (forward_readElements h true [] rest).bind fun vs rest' _ => ?_
  exact forward_closeList fun rest'' => .ok vs rest''

/-! ### Records -/

namespace Record

theorem endsEarly_nextKey {first : Bool} (h : skipBlanks bytes = []) :
    EndsEarly (nextKey .closed first bytes) := by
  rw [nextKey, h]
  exact endsEarly_closed .object

theorem endsEarly_nextKey_comma (h : skipBlanks bytes = []) :
    EndsEarly (nextKey .closed false (comma :: bytes)) := by
  rw [nextKey, skipBlanks_of_not_blank rfl]
  simp only [h]
  exact endsEarly_closed .value

theorem forward_nextKey (first : Bool) (bytes : Bytes) : Json.Forward (nextKey .closed first) bytes := by
  cases h : nextKey .closed first bytes with
  | error fault => exact .of_error h
  | ok next =>
    obtain ⟨stage, rest⟩ := next
    cases stage with
    | after =>
      obtain ⟨gap, rest, hg, rfl, rfl⟩ := nextKey_after_iff.mp h
      refine .peek_byte (v := Stage.after) (skipBlanks_gap hg rfl rest)
        (not_beginsNumber_closing (.inr rfl)) (fun _ => endsEarly_nextKey) fun bytes rest hb => ?_
      obtain ⟨-, gap, hg, hbytes⟩ := skipBlanks_eq_cons_iff.mp hb
      exact nextKey_after_iff.mpr ⟨gap, rest, hg, rfl, hbytes⟩
    | value =>
      obtain ⟨separator, hs, rfl⟩ := nextKey_value_iff.mp h
      cases hs with
      | first hg =>
        refine .gap (skipBlanks_gap hg rfl rest) (fun _ => endsEarly_nextKey) (fun bytes rest hb => ?_)
          (.ok Stage.value rest)
        simp only [nextKey, hb]
        rfl
      | @next before after hg hg' =>
        rw [List.append_assoc, List.cons_append]
        have hcomma := skipBlanks_gap hg (show isBlank comma = false from rfl)
        refine .gap (hcomma (after ++ quote :: rest)) (fun _ => endsEarly_nextKey)
          (g := fun rest => nextKey .closed false (comma :: rest)) (fun bytes rest hb => ?_) ?_
        · simp only [nextKey, hb, skipBlanks_of_not_blank (show isBlank comma = false from rfl)]
        · refine .gap (skipBlanks_gap hg' rfl rest) (fun _ => endsEarly_nextKey_comma)
            (fun bytes rest hb => ?_) (.ok Stage.value rest)
          rw [nextKey, skipBlanks_of_not_blank rfl]
          simp only [hb]
          rfl

variable {σ : Type} {r : Record σ α}

/-- The readers of the fields go from front to back. -/
def Forward (r : Record σ α) : Prop :=
  ∀ field ∈ r.fields, field.value.Forward

theorem ends_of_nextKey {bytes rest : Bytes} {stage : Stage}
    (h : nextKey .closed false bytes = .ok (stage, rest)) : Ends .closed bytes := by
  cases stage with
  | after =>
    obtain ⟨gap, rest, hg, -, rfl⟩ := nextKey_after_iff.mp h
    exact ends_of_blanks hg (.inr (.inr rfl)) rest
  | value =>
    obtain ⟨separator, hs, rfl⟩ := nextKey_value_iff.mp h
    cases hs with
    | next hg hg' =>
      rw [List.append_assoc]
      exact ends_of_blanks hg (.inl rfl) _

/-- After a member, the others need more bytes, and take none that could be more of a number. -/
theorem delimits_readMembers (seen : List String) (s : σ) :
    Delimits (r.readMembers .closed false seen s) where
  nil := by
    rw [readMembers_eq]
    exact (endsEarly_nextKey rfl).bind _
  ends h := by
    rw [readMembers_eq] at h
    obtain ⟨⟨stage, rest⟩, hnext, -⟩ := bind_eq_ok.mp h
    exact ends_of_nextKey hnext

theorem forward_readField {field : Field σ} (h : field.value.Forward) (seen : List String) (s : σ)
    (bytes : Bytes) : Json.Forward (readField .closed field seen s) bytes := by
  refine .ite (fun _ => .error _ bytes) fun _ => ?_
  refine forward_readColon fun rest _ => ?_
  exact (h.read rest).bind fun put rest' _ => .ok (put s) rest'

theorem forward_skipField {k : Bytes → Except Fault (β × Bytes)} (hd : Delimits k)
    (hk : ∀ rest, skipField .closed bytes = .ok rest → Json.Forward k rest) :
    Json.Forward (fun bytes => skipField .closed bytes >>= k) bytes := by
  simp only [skipField, bind_assoc]
  refine forward_readColon fun rest hcolon => ?_
  refine forward_skipThen hd fun rest' hrest => hk rest' ?_
  exact bind_eq_ok.mpr ⟨rest, hcolon, hrest⟩

theorem forward_readMember (h : r.Forward) {seen : List String} {s : σ}
    {k : (List String × σ) × Bytes → Except Fault (β × Bytes)}
    (hd : ∀ read, Delimits fun rest => k (read, rest))
    (hk : ∀ read rest, r.readMember .closed seen s bytes = .ok (read, rest) →
      Json.Forward (fun rest => k (read, rest)) rest) :
    Json.Forward (fun bytes => r.readMember .closed seen s bytes >>= k) bytes := by
  simp only [readMember, bind_assoc] at hk ⊢
  refine (forward_readText bytes).bind fun key rest hkey => ?_
  have hread : ∀ read rest', _ → Json.Forward (fun rest => k (read, rest)) rest' :=
    fun read rest' h => hk read rest' (bind_eq_ok.mpr ⟨_, hkey, h⟩)
  dsimp only at hread ⊢
  -- the key tells whether the value is read or passed over
  cases hf : r.fields.find? (·.key == key) with
  | some field =>
    simp only [hf, bind_assoc] at hread ⊢
    have hfield := forward_readField (h field (List.mem_of_find?_eq_some hf)) seen s rest
    refine hfield.bind fun s' rest' hs => hread _ rest' (bind_eq_ok.mpr ⟨_, hs, rfl⟩)
  | none =>
    simp only [hf, bind_assoc] at hread ⊢
    exact forward_skipField (hd _) fun rest' hs => hread _ rest' (bind_eq_ok.mpr ⟨_, hs, rfl⟩)

theorem forward_readMembers (h : r.Forward) (first : Bool) (seen : List String) (s : σ)
    (bytes : Bytes) : Json.Forward (r.readMembers .closed first seen s) bytes := by
  induction hn : bytes.length using Nat.strongRecOn generalizing first seen s bytes with
  | ind n ih =>
    subst hn
    refine Json.Forward.congr (readMembers_eq r .closed first seen s) ?_
    refine (forward_nextKey first bytes).bind fun stage rest hnext => ?_
    cases stage with
    | after => exact .ok s rest
    | value =>
      refine forward_readMember h (fun read => delimits_readMembers _ _) fun read rest' hread => ?_
      have hl := Nat.lt_of_lt_of_le (length_of_readMember hread) (length_of_nextKey hnext)
      exact ih _ hl false read.1 read.2 rest' rfl

theorem forward_closeObject {k : Bytes → Except Fault (β × Bytes)}
    (hk : ∀ rest, Json.Forward k rest) :
    Json.Forward (fun bytes => closeObject .closed bytes >>= k) bytes := by
  refine .blanks (fun b rest => if b == closeBrace then k rest
    else if b == comma then .error ⟨.trailingComma, .peeked (rest.length + 1)⟩
    else .error ⟨.trailingCharacters, .peeked (rest.length + 1)⟩) (fun bytes hb => ?_)
    (fun bytes b rest hb => ?_) fun b rest _ => ?_
  · rw [closeObject, hb]
    exact (endsEarly_closed .object).bind k
  · simp only [closeObject, hb]
    split
    · rfl
    · split <;> rfl
  · exact .ite (fun _ => hk rest) fun _ => .ite (fun _ => .error _ rest) fun _ => .error _ rest

theorem forward_readObject (h : r.Forward) (bytes : Bytes) :
    Json.Forward (r.readObject .closed) bytes := by
  refine (forward_readMembers h true [] r.start bytes).bind fun s rest _ => ?_
  dsimp only
  cases r.build s with
  | ok v => exact forward_closeObject fun rest' => .ok v rest'
  | error field => exact .error _ rest

theorem forward_readFields {fields : List (Field σ)} (h : ∀ field ∈ fields, field.value.Forward)
    (index : Nat) (s : σ) (bytes : Bytes) :
    Json.Forward (r.readFields .closed index fields s) bytes := by
  induction fields generalizing index s bytes with
  | nil => exact .ok s bytes
  | cons field fields ih =>
    refine (forward_nextElement (index == 0) bytes).bind fun stage rest _ => ?_
    cases stage with
    | after => exact .error _ rest
    | value =>
      refine ((h field List.mem_cons_self).read rest).bind fun put rest' _ => ?_
      exact ih (fun f hf => h f (List.mem_cons_of_mem field hf)) (index + 1) (put s) rest'

theorem forward_readList (h : r.Forward) (bytes : Bytes) :
    Json.Forward (r.readList .closed) bytes := by
  refine (forward_readFields h 0 r.start bytes).bind fun s rest _ => ?_
  dsimp only
  cases r.build s with
  | ok v => exact forward_closeList fun rest' => .ok v rest'
  | error field => exact .error _ rest

theorem reader_forward (h : r.Forward) : r.reader.Forward := by
  refine Reader.forward_of_readValue (fun _ => rfl) fun b rest => ?_
  refine .ite (fun _ => forward_readList h rest) fun _ => ?_
  exact .ite (fun _ => forward_readObject h rest) fun _ => .error _ rest

end Record

/-! ### Whole inputs -/

namespace Reader

variable {r : Reader α}

theorem Forward.readAll_of_read (h : r.Forward) {v : α} {after : Bytes}
    (hr : r.read .closed bytes = .ok (v, after)) (ha : Blanks after) :
    r.readAll .closed bytes = .ok v := by
  cases hb : skipBlanks bytes with
  | nil =>
    obtain ⟨inside, mark, he⟩ := h.blanks bytes hb
    rw [hr] at he
    cases he
  | cons b rest =>
    rw [h.skips, hb] at hr
    exact readAll_eq_ok_iff.mpr ⟨b, rest, after, hb, hr, ha⟩

theorem Forward.read_of_readAll (h : r.Forward) {v : α} (hv : r.readAll .closed bytes = .ok v) :
    ∃ after, Blanks after ∧ r.read .closed bytes = .ok (v, after) := by
  obtain ⟨b, rest, after, hb, hr, ha⟩ := readAll_eq_ok_iff.mp hv
  refine ⟨after, ha, ?_⟩
  rw [h.skips, hb]
  exact hr

theorem readAll_of_error {fault : Fault} (h : r.Forward) (hr : r.read .closed bytes = .error fault) :
    r.readAll .closed bytes = .error fault ∨ EndsEarly (r.readAll .closed bytes) := by
  rw [readAll]
  split
  · exact .inr ⟨.value, _, rfl⟩
  · rename_i b rest hb
    rw [h.skips, hb] at hr
    rw [hr]
    exact .inl rfl

/-- Of a whole input nothing but blanks at the end can be missing. -/
theorem Forward.readAll_cut (h : r.Forward) {kept lost : Bytes} {v : α}
    (hv : r.readAll .closed (kept ++ lost) = .ok v) (hl : ¬ Blanks lost) :
    ∃ fault, r.readAll .closed kept = .error fault ∧
      TooShort (r.readAll .closed · = .ok v) kept lost fault.cause := by
  obtain ⟨after, ha, hr⟩ := h.read_of_readAll hv
  have hcut := (h.read (kept ++ lost)).cut rfl hr
  generalize hx : r.read .closed kept = x at hcut
  cases hcut with
  | past hafter =>
    -- then only blanks would be lost
    subst hafter
    exact absurd (blanks_append_iff.mp ha).2 hl
  | @short fault hshort =>
    rcases readAll_of_error h hx with he | ⟨inside, mark, he⟩
    · refine ⟨fault, he, ?_⟩
      exact hshort.append [] fun bytes _ hb => h.readAll_of_read hb ha
    · exact ⟨_, he, .ended inside⟩

/-- Of a whole input nothing but blanks at the end can be missing. -/
theorem Forward.parse_cut (h : r.Forward) {kept lost : Bytes} {v : α}
    (hv : r.parse (.ofBytes (kept ++ lost)) = .ok v) (hl : ¬ Blanks lost) :
    ∃ e, r.parse (.ofBytes kept) = .error e ∧
      TooShort (fun bytes => r.parse (.ofBytes bytes) = .ok v) kept lost e.cause := by
  obtain ⟨fault, hf, hshort⟩ := h.readAll_cut (parse_eq_ok_iff.mp hv) hl
  refine ⟨⟨fault.cause, fault.mark.place? kept .stream⟩, parse_of_error hf, ?_⟩
  exact hshort.append [] fun bytes _ hb => parse_eq_ok_iff.mpr hb

end Reader

end BuildFleet.Json
