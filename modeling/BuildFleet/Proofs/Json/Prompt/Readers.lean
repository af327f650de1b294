import BuildFleet.Proofs.Json.Delivery
import BuildFleet.Proofs.Json.Prompt.Skipping

/-!
# JSON — readers that find faults at once

A reader finds its faults at once (`Reader.Prompt`) if the readers of its parts do.  A fault about the
fields of a record is no exception: it is placed behind the byte that closes the record, if that comes
next, and in front of any other byte, and depends on nothing behind that one (`prompt_faultAtEnd`).

* `Reader.string_prompt`, `Reader.list_prompt`, `Record.reader_prompt` and so on: the readers.
* `Place.eq_of_after_take`: a place tells how many bytes of a text are counted.
* `Reader.Prompt.parse_eq`: texts with the same bytes up to a fault, and the same one behind it, are parsed
  to the same error.
-/

namespace BuildFleet.Json

variable {α β : Type} {bytes : Bytes}

/-! ### Values of another type -/

theorem error_wrongType (wanted : Wanted) (b : UInt8) (rest : Bytes) :
    (.error (wrongType .closed wanted b rest) : Except Fault (β × Bytes)) =
      readFound .closed b rest >>= fun (found, mark) => .error ⟨.invalidType found wanted, mark⟩ := by
  rw [wrongType]
  cases readFound .closed b rest <;> rfl

theorem prompt_wrongType (wanted : Wanted) (b : UInt8) (rest : Bytes) :
    Prompt (fun bytes => (.error (wrongType .closed wanted b bytes.tail) : Except Fault (β × Bytes)))
      (b :: rest) := by
  simp only [error_wrongType]
  by_cases hnull : b == letterN
  · refine .taken ?_
    simp only [readFound, if_pos hnull, bind_assoc, List.tail_cons]
    exact prompt_readLetters fun rest' _ => .consumed (.invalidType .null wanted) rest'
  by_cases htrue : b == letterT
  · refine .taken ?_
    simp only [readFound, if_neg hnull, if_pos htrue, bind_assoc, List.tail_cons]
    exact prompt_readLetters fun rest' _ => .consumed (.invalidType (.boolean true) wanted) rest'
  by_cases hfalse : b == letterF
  · refine .taken ?_
    simp only [readFound, if_neg hnull, if_neg htrue, if_pos hfalse, bind_assoc, List.tail_cons]
    exact prompt_readLetters fun rest' _ => .consumed (.invalidType (.boolean false) wanted) rest'
  by_cases hminus : b == minusSign
  · refine .taken ?_
    simp only [readFound, if_neg hnull, if_neg htrue, if_neg hfalse, if_pos hminus, bind_assoc,
      List.tail_cons]
    exact (prompt_readNumber true rest).bind fun found rest' _ =>
      .looked (.invalidType found wanted) rest'
  by_cases hdigit : isDigit b
  · simp only [readFound, if_neg hnull, if_neg htrue, if_neg hfalse, if_neg hminus, if_pos hdigit,
      bind_assoc]
    refine .first (g := fun bytes => readNumber .closed false bytes >>= fun read =>
      .error ⟨.invalidType read.1 wanted, .looked read.2.length⟩) (fun _ => rfl) ?_
    exact (prompt_readNumber false (b :: rest)).bind fun found rest' _ =>
      .looked (.invalidType found wanted) rest'
  by_cases hquote : b == quote
  · refine .taken ?_
    simp only [readFound, if_neg hnull, if_neg htrue, if_neg hfalse, if_neg hminus, if_neg hdigit,
      if_pos hquote, bind_assoc, List.tail_cons]
    exact (prompt_readText rest).bind fun s rest' _ =>
      .consumed (.invalidType (.string s) wanted) rest'
  simp only [readFound, if_neg hnull, if_neg htrue, if_neg hfalse, if_neg hminus, if_neg hdigit,
    if_neg hquote]
  by_cases hlist : b == openBracket
  · -- of a list or an object not even the first byte counts
    simp only [if_pos hlist]
    exact .first (fun _ => rfl) (.looked (.invalidType .sequence wanted) (b :: rest))
  by_cases hobject : b == openBrace
  · simp only [if_neg hlist, if_pos hobject]
    exact .first (fun _ => rfl) (.looked (.invalidType .map wanted) (b :: rest))
  · simp only [if_neg hlist, if_neg hobject]
    exact .taken (.peeked _ rest)

/-! ### Values without parts -/

/-- The reader finds its faults at once. -/
def Reader.Prompt (r : Reader α) : Prop :=
  ∀ bytes, Json.Prompt (r.read .closed) bytes

theorem prompt_readValue {read : UInt8 → Bytes → Except Fault (α × Bytes)}
    (h : ∀ b rest, Prompt (fun bytes => read b bytes.tail) (b :: rest)) (bytes : Bytes) :
    Prompt (fun bytes => readValue .closed bytes read) bytes := by
  refine .skips (fun bytes => ?_) (leaves_atEnd _) fun b rest _ hb => .first (fun rest => ?_) (h b rest)
  · simp only [readValue, skipBlanks_skipBlanks]
  · simp only [readValue, hb]
    rfl

namespace Reader

variable {r : Reader α}

theorem Prompt.map (h : r.Prompt) (f : α → β) : (r.map f).Prompt := fun bytes =>
  (h bytes).bind fun v rest _ => .ok (f v) rest

theorem string_prompt : string.Prompt := by
  refine prompt_readValue fun b rest => ?_
  exact .ite (fun _ => .taken (prompt_readText rest)) fun _ => prompt_wrongType _ b rest

theorem boolean_prompt : boolean.Prompt := by
  refine prompt_readValue fun b rest => ?_
  refine .ite (fun _ => .taken ?_) fun _ => .ite (fun _ => .taken ?_) fun _ => prompt_wrongType _ b rest
  · exact prompt_readLetters fun rest' _ => .ok true rest'
  · exact prompt_readLetters fun rest' _ => .ok false rest'

theorem optional_prompt (h : r.Prompt) : r.optional.Prompt := by
  intro bytes
  refine .skips (fun bytes => ?_) (leaves_atEnd _) fun b rest _ hb => ?_
  · simp only [optional, skipBlanks_skipBlanks]
  by_cases hnull : b == letterN
  · refine .taken ?_
    simp only [optional, hb, if_pos hnull]
    exact prompt_readLetters fun rest' _ => .ok none rest'
  · refine .first (g := fun bytes => r.read .closed bytes >>= fun read => .ok (some read.1, read.2))
      (fun rest => ?_) ((h (b :: rest)).bind fun v rest' _ => .ok (some v) rest')
    simp only [optional, hb, if_neg hnull]

end Reader

/-! ### Lists -/

theorem prompt_nextElement (first : Bool) (bytes : Bytes) :
    Prompt (nextElement .closed first) bytes := by
  refine .skips (fun bytes => ?_) (leaves_atEnd _) fun b rest _ hb => ?_
  · simp only [nextElement, skipBlanks_skipBlanks]
  by_cases hclose : b == closeBracket
  · refine .first (fun rest => ?_) (.ok Stage.after (b :: rest))
    simp only [nextElement, hb, if_pos hclose]
  by_cases hfirst : first
  · refine .first (fun rest => ?_) (.ok Stage.value (b :: rest))
    simp only [nextElement, hb, if_neg hclose, if_pos hfirst]
  refine .taken ?_
  simp only [nextElement, hb, if_neg hclose, if_neg hfirst]
  refine .ite (fun _ => ?_) fun _ => .peeked _ rest
  -- behind the comma an element has to follow
  refine .skips (fun bytes => ?_) (leaves_atEnd _) fun c rest' _ hc => ?_
  · simp only [skipBlanks_skipBlanks]
  by_cases hclose : c == closeBracket
  · refine .taken ?_
    simp only [hc, if_pos hclose]
    exact .peeked _ rest'
  · refine .first (fun rest => ?_) (.ok Stage.value (c :: rest'))
    simp only [hc, if_neg hclose]

theorem prompt_closeList {k : Bytes → Except Fault (β × Bytes)} (hk : ∀ rest, Prompt k rest)
    (bytes : Bytes) : Prompt (fun bytes => closeList .closed bytes >>= k) bytes := by
  refine .skips (fun bytes => ?_) (leaves_atEnd _) fun b rest _ hb => .taken ?_
  · simp only [closeList, skipBlanks_skipBlanks]
  simp only [closeList, hb]
  by_cases hclose : b == closeBracket
  · simp only [if_pos hclose]
    exact hk rest
  simp only [if_neg hclose]
  by_cases hcomma : b == comma
  · simp only [if_pos hcomma]
    refine .skips (fun bytes => ?_) (Nat.le_refl 0) fun c rest' _ hc => .taken ?_
    · simp only [skipBlanks_skipBlanks]
    simp only [hc]
    split
    · exact .peeked _ rest'
    · exact .peeked _ rest'
  · simp only [if_neg hcomma]
    exact .peeked _ rest

theorem prompt_readElements {r : Reader α} (h : r.Prompt) (first : Bool) (done : List α)
    (bytes : Bytes) : Prompt (readElements r .closed first done) bytes := by
  induction hn : bytes.length using Nat.strongRecOn generalizing first done bytes with
  | ind n ih =>
    subst hn
    refine .congr (readElements_eq r .closed first done) ?_
    refine (prompt_nextElement first bytes).bind fun stage rest hnext => ?_
    cases stage with
    | after => exact .ok done.reverse rest
    | value =>
      refine (h rest).bind fun v rest' hread => ?_
      have hl := Nat.lt_of_lt_of_le (r.shrinks hread) (length_of_nextElement hnext)
      exact ih _ hl false (v :: done) rest' rfl

theorem Reader.list_prompt {r : Reader α} (h : r.Prompt) : r.list.Prompt := by
  refine prompt_readValue fun b rest => .ite (fun _ => .taken ?_) fun _ => prompt_wrongType _ b rest
  refine (prompt_readElements h true [] rest).bind fun vs rest' _ => ?_
  exact prompt_closeList (.ok vs) rest'

/-! ### Records -/

namespace Record

theorem prompt_faultAtEnd (closing : UInt8) (cause : Cause) (bytes : Bytes) :
    Prompt (fun bytes => (.error (faultAtEnd closing cause bytes) : Except Fault (β × Bytes)))
      bytes := by
  refine .skips (fun bytes => ?_) (Nat.le_refl 0) fun b rest _ hb => ?_
  · simp only [faultAtEnd, skipBlanks_skipBlanks]
  by_cases hclose : b == closing
  · refine .taken ?_
    simp only [faultAtEnd, hb, if_pos hclose]
    exact .consumed cause rest
  · refine .first (fun rest => ?_) (.looked cause (b :: rest))
    simp only [faultAtEnd, hb, if_neg hclose]
    rfl

theorem prompt_nextKey (first : Bool) (bytes : Bytes) : Prompt (nextKey .closed first) bytes := by
  refine .skips (fun bytes => ?_) (leaves_atEnd _) fun b rest _ hb => ?_
  · simp only [nextKey, skipBlanks_skipBlanks]
  by_cases hclose : b == closeBrace
  · refine .first (fun rest => ?_) (.ok Stage.after (b :: rest))
    simp only [nextKey, hb, if_pos hclose]
  refine .taken ?_
  simp only [nextKey, hb, if_neg hclose]
  refine .ite (fun _ => .ite (fun _ => .ok Stage.value rest) fun _ => ?_) fun _ =>
    .ite (fun _ => ?_) fun _ => ?_
  · exact .peeked _ rest
  · -- behind the comma a key has to follow
    refine .skips (fun bytes => ?_) (leaves_atEnd _) fun c rest' _ hc => .taken ?_
    · simp only [skipBlanks_skipBlanks]
    simp only [hc]
    refine .ite (fun _ => .ok Stage.value rest') fun _ => .ite (fun _ => ?_) fun _ => ?_
    · exact .peeked _ rest'
    · exact .peeked _ rest'
  · exact .peeked _ rest

theorem prompt_closeObject {k : Bytes → Except Fault (β × Bytes)} (hk : ∀ rest, Prompt k rest)
    (bytes : Bytes) : Prompt (fun bytes => closeObject .closed bytes >>= k) bytes := by
  refine .skips (fun bytes => ?_) (leaves_atEnd _) fun b rest _ hb => .taken ?_
  · simp only [closeObject, skipBlanks_skipBlanks]
  simp only [closeObject, hb]
  by_cases hclose : b == closeBrace
  · simp only [if_pos hclose]
    exact hk rest
  simp only [if_neg hclose]
  split
  · exact .peeked _ rest
  · exact .peeked _ rest

variable {σ : Type} {r : Record σ α}

/-- The readers of the fields find their faults at once. -/
def Prompt (r : Record σ α) : Prop :=
  ∀ field ∈ r.fields, field.value.Prompt

theorem prompt_readField {field : Field σ} (h : field.value.Prompt) (seen : List String) (s : σ)
    (bytes : Bytes) : Json.Prompt (readField .closed field seen s) bytes := by
  refine .ite (fun _ => prompt_faultAtEnd _ _ bytes) fun _ => ?_
  refine prompt_readColon fun rest _ => ?_
  exact (h rest).bind fun put rest' _ => .ok (put s) rest'

theorem prompt_skipField {k : Bytes → Except Fault (β × Bytes)} (hk : ∀ rest, Json.Prompt k rest)
    (bytes : Bytes) : Json.Prompt (fun bytes => skipField .closed bytes >>= k) bytes := by
  simp only [skipField, bind_assoc]
  exact prompt_readColon fun rest _ => prompt_skipThen fun rest' _ => hk rest'

theorem prompt_readMember (h : r.Prompt) (seen : List String) (s : σ) (bytes : Bytes) :
    Json.Prompt (r.readMember .closed seen s) bytes := by
  refine (prompt_readText bytes).bind fun key rest _ => ?_
  dsimp only
  -- the key tells whether the value is read or passed over
  cases hf : r.fields.find? (·.key == key) with
  | some field =>
    have hfield := prompt_readField (h field (List.mem_of_find?_eq_some hf)) seen s rest
    exact hfield.bind fun s' rest' _ => .ok (key :: seen, s') rest'
  | none => exact prompt_skipField (.ok _) rest

theorem prompt_readMembers (h : r.Prompt) (first : Bool) (seen : List String) (s : σ)
    (bytes : Bytes) : Json.Prompt (r.readMembers .closed first seen s) bytes := by
  induction hn : bytes.length using Nat.strongRecOn generalizing first seen s bytes with
  | ind n ih =>
    subst hn
    refine .congr (readMembers_eq r .closed first seen s) ?_
    refine (prompt_nextKey first bytes).bind fun stage rest hnext => ?_
    cases stage with
    | after => exact .ok s rest
    | value =>
      refine (prompt_readMember h seen s rest).bind fun read rest' hread => ?_
      have hl := Nat.lt_of_lt_of_le (length_of_readMember hread) (length_of_nextKey hnext)
      exact ih _ hl false read.1 read.2 rest' rfl

theorem prompt_readObject (h : r.Prompt) (bytes : Bytes) :
    Json.Prompt (r.readObject .closed) bytes := by
  refine (prompt_readMembers h true [] r.start bytes).bind fun s rest _ => ?_
  dsimp only
  cases r.build s with
  | ok v => exact prompt_closeObject (.ok v) rest
  | error field => exact prompt_faultAtEnd _ _ rest

theorem prompt_readFields {fields : List (Field σ)} (h : ∀ field ∈ fields, field.value.Prompt)
    (index : Nat) (s : σ) (bytes : Bytes) :
    Json.Prompt (r.readFields .closed index fields s) bytes := by
  induction fields generalizing index s bytes with
  | nil => exact .ok s bytes
  | cons field fields ih =>
    refine (prompt_nextElement (index == 0) bytes).bind fun stage rest _ => ?_
    cases stage with
    | after => exact prompt_faultAtEnd _ _ rest
    | value =>
      refine (h field List.mem_cons_self rest).bind fun put rest' _ => ?_
      exact ih (fun f hf => h f (List.mem_cons_of_mem field hf)) (index + 1) (put s) rest'

theorem prompt_readList (h : r.Prompt) (bytes : Bytes) : Json.Prompt (r.readList .closed) bytes := by
  refine (prompt_readFields h 0 r.start bytes).bind fun s rest _ => ?_
  dsimp only
  cases r.build s with
  | ok v => exact prompt_closeList (.ok v) rest
  | error field => exact prompt_faultAtEnd _ _ rest

theorem reader_prompt (h : r.Prompt) : r.reader.Prompt := by
  refine prompt_readValue fun b rest => .ite (fun _ => .taken (prompt_readList h rest)) fun _ => ?_
  exact .ite (fun _ => .taken (prompt_readObject h rest)) fun _ => prompt_wrongType _ b rest

end Record

/-! ### Whole inputs -/

/-- Behind a value there may be nothing but blanks. -/
def endOf (v : α) (bytes : Bytes) : Except Fault (α × Bytes) :=
  match skipBlanks bytes with
  | [] => .ok (v, [])
  | _ :: rest => .error ⟨.trailingCharacters, .peeked (rest.length + 1)⟩

theorem prompt_endOf (v : α) (bytes : Bytes) : Prompt (endOf v) bytes := by
  refine .skips (fun bytes => ?_) (Nat.le_refl 0) fun b rest _ hb => .taken ?_
  · simp only [endOf, skipBlanks_skipBlanks]
  · simp only [endOf, hb]
    exact .peeked _ rest

theorem Reader.readAll_cons (r : Reader α) {b : UInt8} {rest : Bytes}
    (hb : skipBlanks (b :: rest) = b :: rest) :
    (r.readAll .closed (b :: rest) >>= fun v => .ok (v, ([] : Bytes))) =
      r.read .closed (b :: rest) >>= fun read => endOf read.1 read.2 := by
  rw [readAll, hb]
  dsimp only
  rw [bind_assoc]
  refine congrArg _ (funext fun read => ?_)
  rw [endOf]
  rcases skipBlanks read.2 with _ | ⟨c, rest⟩ <;> rfl

/-- Nothing is left of a whole input. -/
theorem Reader.Prompt.readAll {r : Reader α} (h : r.Prompt) (bytes : Bytes) :
    Json.Prompt (fun bytes => r.readAll .closed bytes >>= fun v => .ok (v, [])) bytes := by
  refine .skips (fun bytes => ?_) (leaves_atEnd _) fun b rest _ hb => ?_
  · simp only [Reader.readAll, skipBlanks_skipBlanks]
  · exact .first (fun rest => r.readAll_cons (hb rest))
      ((h (b :: rest)).bind fun v rest' _ => prompt_endOf v rest')

/-- A fault that counts the bytes in front of `b`, and not `b`, is the same whatever follows `b`. -/
theorem Reader.Prompt.exists_error {r : Reader α} (h : r.Prompt) {fault : Fault} {front rest : Bytes}
    {b : UInt8} (hf : r.readAll .closed (front ++ b :: rest) = .error fault)
    (ha : fault.mark.ahead = rest.length + 1) (rest' : Bytes) :
    ∃ mark, r.readAll .closed (front ++ b :: rest') = .error ⟨fault.cause, mark⟩ ∧
      mark.ahead = rest'.length + 1 := by
  have hread := (h.readAll (front ++ b :: rest)).exists_error (by rw [hf]; rfl) ha rest'
  obtain ⟨mark, hmark, hahead⟩ := hread
  refine ⟨mark, ?_, hahead⟩
  cases hx : r.readAll .closed (front ++ b :: rest') with
  | ok v =>
    rw [hx] at hmark
    cases hmark
  | error fault' =>
    rw [hx] at hmark
    cases hmark
    rfl

/-- No fault counts less than nothing. -/
theorem Reader.Prompt.ahead_le {r : Reader α} (h : r.Prompt) {fault : Fault}
    (hf : r.readAll .closed bytes = .error fault) : fault.mark.ahead ≤ bytes.length := by
  have hleaves := (h.readAll bytes).leaves
  rw [hf] at hleaves
  exact hleaves

/-! ### Places -/

/-- Each byte more moves the place. -/
theorem Place.eq_nil_of_after_append {front more : Bytes}
    (h : Place.after (front ++ more) = Place.after front) : more = [] := by
  rw [after, after, mk.injEq, List.count_append] at h
  obtain ⟨hline, hcolumn⟩ := h
  -- there is no line feed in `more`, so all of it counts for the column
  have hnone : ∀ b ∈ more.reverse, (b != newline) = true := by
    intro b hb
    have hcount : more.count newline = 0 := by omega
    have hne : b ≠ newline := fun he => List.count_eq_zero.mp hcount (he ▸ List.mem_reverse.mp hb)
    simpa using hne
  rw [List.reverse_append, List.takeWhile_append_of_pos hnone, List.length_append,
    List.length_reverse] at hcolumn
  exact List.eq_nil_of_length_eq_zero (by omega)

/-- A place in a text tells how many of its bytes are counted. -/
theorem Place.eq_of_after_take {j k : Nat} (hj : j ≤ bytes.length) (hk : k ≤ bytes.length)
    (h : Place.after (bytes.take j) = Place.after (bytes.take k)) : j = k := by
  have hle : ∀ {j k}, j ≤ k → k ≤ bytes.length →
      Place.after (bytes.take j) = Place.after (bytes.take k) → j = k := by
    intro j k hjk hk h
    obtain ⟨more, hmore⟩ := List.take_prefix_take_left (l := bytes) hjk
    rw [← hmore] at h
    have hnil := eq_nil_of_after_append h.symm
    have hlength := congrArg List.length hmore
    rw [hnil, List.append_nil, List.length_take_of_le (Nat.le_trans hjk hk),
      List.length_take_of_le hk] at hlength
    exact hlength
  rcases Nat.le_total j k with hjk | hkj
  · exact hle hjk hk h
  · exact (hle hkj hj h.symm).symm

namespace Mark.Placed

variable {mark : Mark} {front rest : Bytes} {b : UInt8}

/-- The place of a mark that says which bytes count. -/
theorem place?_text (h : mark.Placed) (bytes : Bytes) :
    mark.place? bytes .text = some (Place.after (bytes.take (bytes.length - mark.ahead))) := by
  cases mark with
  | nowhere => exact h.elim
  | behind => exact h.elim
  | consumed left => rfl
  | peeked left => rfl
  | looked left => rfl

theorem place?_of_ahead (h : mark.Placed) (ha : mark.ahead = rest.length + 1) :
    mark.place? (front ++ b :: rest) .text = some (Place.after front) := by
  have hcounted : (front ++ b :: rest).length - mark.ahead = front.length := by
    rw [ha, List.length_append, List.length_cons]
    omega
  rw [h.place?_text, hcounted, List.take_left]

theorem ahead_of_place? (h : mark.Placed) (hle : mark.ahead ≤ (front ++ b :: rest).length)
    (hp : mark.place? (front ++ b :: rest) .text = some (Place.after front)) :
    mark.ahead = rest.length + 1 := by
  rw [h.place?_text] at hp
  have hfront : (front ++ b :: rest).take front.length = front := List.take_left
  have hlength : (front ++ b :: rest).length = front.length + (rest.length + 1) := by
    rw [List.length_append, List.length_cons]
  have hcounted := Place.eq_of_after_take (Nat.sub_le _ _) (by omega)
    ((Option.some.inj hp).trans (congrArg Place.after hfront.symm))
  omega

end Mark.Placed

/-! ### Texts -/

namespace Reader

open Text.Utf8

variable {r : Reader α} {s t : String} {error : Error}

theorem parse_ofString_eq_error_iff :
    r.parse (.ofString s) = .error error ↔ ∃ fault, r.readAll .closed (encode s) = .error fault ∧
      error = ⟨fault.cause, fault.mark.place? (encode s) .text⟩ := by
  rw [Reader.parse_eq, Input.answer_eq_error_iff]
  rfl

/-- An error in a text counts some of its bytes. -/
theorem Keeps.exists_place (h : r.Keeps) (he : r.parse (.ofString s) = .error error) :
    ∃ k ≤ (encode s).length, error.place? = some (Place.after ((encode s).take k)) := by
  obtain ⟨fault, hf, rfl⟩ := parse_ofString_eq_error_iff.mp he
  have hplaced : fault.mark.Placed := (h.placed_readAll (valid_encode s)).placed hf
  exact ⟨_, Nat.sub_le _ _, hplaced.place?_text _⟩

/-- **A fault is found at once.**  An error that counts the bytes in front of `b`, and not `b`, is the same
in any text that begins with these bytes and `b`. -/
theorem Prompt.parse_eq (hr : r.Prompt) (hkeeps : r.Keeps) {front rest rest' : Bytes} {b : UInt8}
    (hs : encode s = front ++ b :: rest) (ht : encode t = front ++ b :: rest')
    (he : r.parse (.ofString s) = .error error) (hplace : error.place? = some (Place.after front)) :
    r.parse (.ofString t) = .error error := by
  obtain ⟨fault, hf, rfl⟩ := parse_ofString_eq_error_iff.mp he
  have hplaced : fault.mark.Placed := (hkeeps.placed_readAll (valid_encode s)).placed hf
  rw [hs] at hf hplace
  have hahead := hplaced.ahead_of_place? (hr.ahead_le hf) hplace
  obtain ⟨mark, hmark, hahead'⟩ := hr.exists_error hf hahead rest'
  rw [← ht] at hmark
  have hplaced' : mark.Placed := (hkeeps.placed_readAll (valid_encode t)).placed hmark
  refine parse_ofString_eq_error_iff.mpr ⟨_, hmark, ?_⟩
  rw [hs, ht, hplaced.place?_of_ahead hahead, hplaced'.place?_of_ahead hahead']

end Reader

end BuildFleet.Json
