import BuildFleet.Json.Record
import BuildFleet.Proofs.Json.Skipping

/-!
# JSON — a stream that fails after its bytes

The same bytes are read twice, once with an end after them and once with a failure to read on.  The
second reading goes as the first one does, up to the step that looks beyond the last byte; that step
finds the failure.  So the two come to the same, or the second comes to the failure (`OrFailed`).

* `OrFailed.bind`: a chain of two steps is such if both are.
* `Reader.Persists`: a reader is such.  `Reader.string_persists`, `Reader.list_persists`,
  `Record.reader_persists` and so on: readers are, if those of their parts are.
* `Reader.Persists.parse_failingAfter`: a whole input is never read from a stream that fails; what is
  found wrong is the failure, or what is found wrong with the bytes if they end there.
-/

namespace BuildFleet.Json

/-- The outcome is this one, or the failure to read on. -/
inductive OrFailed {α : Type} (error : SystemError) : Except Fault α → Except Fault α → Prop where
  | same (x : Except Fault α) : OrFailed error x x
  | failed (mark : Mark) (x : Except Fault α) : OrFailed error (.error ⟨.io error, mark⟩) x

section OrFailed

variable {α β : Type} {error : SystemError}

/-- What follows the first step has to be such only where that gives a value. -/
theorem OrFailed.bind {x y : Except Fault α} {f g : α → Except Fault β} (h : OrFailed error x y)
    (hf : ∀ v, y = .ok v → OrFailed error (f v) (g v)) :
    OrFailed error (x >>= f) (y >>= g) := by
  cases h with
  | failed mark => exact .failed mark _
  | same =>
    cases x with
    | error fault => exact .same _
    | ok v => exact hf v rfl

theorem OrFailed.bind_ok {γ : Type} {x y : Except Fault α} {f : α → γ} (h : OrFailed error x y) :
    OrFailed error (x >>= fun v => .ok (f v)) (y >>= fun v => .ok (f v)) :=
  h.bind fun _ _ => .same _

/-- At the end of the bytes the failure stands for any cause. -/
theorem orFailed_fault (cause : Cause) :
    OrFailed (α := α) error (.error ((Ending.failing error).fault cause))
      (.error (Ending.closed.fault cause)) :=
  .failed _ _

theorem orFailed_look (bytes : Bytes) :
    OrFailed error ((Ending.failing error).look bytes) (Ending.closed.look bytes) := by
  cases bytes with
  | nil => exact .failed _ _
  | cons => exact .same _

end OrFailed

variable {error : SystemError}

/-! ### Words and numbers -/

theorem orFailed_readLetters (letters bytes : Bytes) :
    OrFailed error (readLetters (.failing error) letters bytes) (readLetters .closed letters bytes) := by
  induction letters generalizing bytes with
  | nil => exact .same _
  | cons letter letters ih =>
    cases bytes with
    | nil => exact orFailed_fault _
    | cons b bytes =>
      rw [readLetters, readLetters]
      split
      · exact ih bytes
      · exact .same _

theorem orFailed_readWhole (atEnd : Cause) (bytes : Bytes) :
    OrFailed error (readWhole (.failing error) atEnd bytes) (readWhole .closed atEnd bytes) := by
  cases bytes with
  | nil => exact orFailed_fault _
  | cons b rest =>
    rw [readWhole.eq_def, readWhole.eq_def]
    exact .same _

theorem orFailed_readFraction (atEnd : Cause) (bytes : Bytes) :
    OrFailed error (readFraction (.failing error) atEnd bytes) (readFraction .closed atEnd bytes) := by
  cases bytes with
  | nil => exact .same _
  | cons b rest =>
    rw [readFraction, readFraction]
    split
    · dsimp only
      split
      · cases rest with
        | nil => exact orFailed_fault _
        | cons => exact .same _
      · exact .same _
    · exact .same _

theorem orFailed_readExponent (atEnd : Cause) (bytes : Bytes) :
    OrFailed error (readExponent (.failing error) atEnd bytes) (readExponent .closed atEnd bytes) := by
  cases bytes with
  | nil => exact .same _
  | cons b rest =>
    rw [readExponent, readExponent]
    split
    · rcases readSign rest with ⟨negative, _ | ⟨d, more⟩⟩
      · exact orFailed_fault _
      · exact .same _
    · exact .same _

theorem orFailed_readNumeral (atEnd : Cause) (bytes : Bytes) :
    OrFailed error (readNumeral (.failing error) atEnd bytes) (readNumeral .closed atEnd bytes) := by
  refine (orFailed_readWhole atEnd bytes).bind fun whole _ => ?_
  refine (orFailed_readFraction atEnd whole.2).bind fun fraction _ => ?_
  exact (orFailed_readExponent atEnd fraction.2).bind_ok

theorem orFailed_skipNumber (bytes : Bytes) :
    OrFailed error (skipNumber (.failing error) bytes) (skipNumber .closed bytes) :=
  (orFailed_readNumeral .invalidNumber bytes).bind fun n _ => orFailed_look n.2

theorem orFailed_found (n : Numeral) (negative : Bool) (rest : Bytes) :
    OrFailed error (n.found (.failing error) negative rest) (n.found .closed negative rest) := by
  rw [Numeral.found, Numeral.found]
  split
  · exact .same _
  · exact (orFailed_look rest).bind fun _ _ => .same _

theorem orFailed_readNumber (negative : Bool) (bytes : Bytes) :
    OrFailed error (readNumber (.failing error) negative bytes) (readNumber .closed negative bytes) := by
  refine (orFailed_readNumeral (.ended .value) bytes).bind fun n _ => ?_
  exact (orFailed_found n.1 negative n.2).bind_ok

/-! ### Strings -/

theorem orFailed_readCodeUnit (bytes : Bytes) :
    OrFailed error (readCodeUnit (.failing error) bytes) (readCodeUnit .closed bytes) := by
  rw [readCodeUnit.eq_def, readCodeUnit.eq_def]
  split
  · exact .same _
  · exact orFailed_fault _

theorem orFailed_continueEscape (expected : UInt8) (bytes : Bytes) :
    OrFailed error (continueEscape (.failing error) expected bytes)
      (continueEscape .closed expected bytes) := by
  cases bytes with
  | nil => exact orFailed_fault _
  | cons => exact .same _

theorem orFailed_readUnitEscape (bytes : Bytes) :
    OrFailed error (readUnitEscape (.failing error) bytes) (readUnitEscape .closed bytes) := by
  refine (orFailed_readCodeUnit bytes).bind fun unit _ => ?_
  dsimp only
  split
  · exact .same _
  · split
    · refine (orFailed_continueEscape backslash unit.2).bind fun rest₁ _ => ?_
      refine (orFailed_continueEscape letterU rest₁).bind fun rest₂ _ => ?_
      exact (orFailed_readCodeUnit rest₂).bind fun _ _ => .same _
    · exact .same _

theorem orFailed_readEscape (bytes : Bytes) :
    OrFailed error (readEscape (.failing error) bytes) (readEscape .closed bytes) := by
  cases bytes with
  | nil => exact orFailed_fault _
  | cons b rest =>
    rw [readEscape, readEscape]
    split
    · exact .same _
    · split
      · exact orFailed_readUnitEscape rest
      · exact .same _

theorem orFailed_skipEscape (bytes : Bytes) :
    OrFailed error (skipEscape (.failing error) bytes) (skipEscape .closed bytes) := by
  cases bytes with
  | nil => exact orFailed_fault _
  | cons b rest =>
    rw [skipEscape, skipEscape]
    split
    · exact .same _
    · split
      · exact (orFailed_readCodeUnit rest).bind_ok
      · exact .same _

theorem orFailed_readTextBytes (done bytes : Bytes) :
    OrFailed error (readTextBytes (.failing error) done bytes) (readTextBytes .closed done bytes) := by
  induction hn : bytes.length using Nat.strongRecOn generalizing done bytes with
  | ind n ih =>
    subst hn
    cases bytes with
    | nil =>
      rw [readTextBytes_nil, readTextBytes_nil]
      exact orFailed_fault _
    | cons b rest =>
      rw [readTextBytes_cons, readTextBytes_cons]
      split
      · exact .same _
      split
      · refine (orFailed_readEscape rest).bind fun read hread => ?_
        exact ih _ (Nat.lt_succ_of_lt (length_of_readEscape hread)) _ _ rfl
      split
      · exact .same _
      · exact ih _ (Nat.lt_succ_self _) _ _ rfl

theorem orFailed_readText (bytes : Bytes) :
    OrFailed error (readText (.failing error) bytes) (readText .closed bytes) :=
  (orFailed_readTextBytes [] bytes).bind fun _ _ => .same _

theorem orFailed_skipText (bytes : Bytes) :
    OrFailed error (skipText (.failing error) bytes) (skipText .closed bytes) := by
  induction hn : bytes.length using Nat.strongRecOn generalizing bytes with
  | ind n ih =>
    subst hn
    cases bytes with
    | nil =>
      rw [skipText_nil, skipText_nil]
      exact orFailed_fault _
    | cons b rest =>
      rw [skipText_cons, skipText_cons]
      split
      · exact .same _
      split
      · refine (orFailed_skipEscape rest).bind fun rest' hrest => ?_
        exact ih _ (Nat.lt_succ_of_lt (length_of_skipEscape hrest)) _ rfl
      split
      · exact .same _
      · exact ih _ (Nat.lt_succ_self _) _ rfl

/-! ### Values that are passed over -/

theorem orFailed_readColon (bytes : Bytes) :
    OrFailed error (readColon (.failing error) bytes) (readColon .closed bytes) := by
  rw [readColon, readColon]
  split
  · exact orFailed_fault _
  · exact .same _

theorem orFailed_skipKey (bytes : Bytes) :
    OrFailed error (skipKey (.failing error) bytes) (skipKey .closed bytes) := by
  rw [skipKey, skipKey]
  split
  · exact orFailed_fault _
  · split
    · exact (orFailed_skipText _).bind fun rest _ => orFailed_readColon rest
    · exact .same _

theorem orFailed_toValue (frame : Frame) (bytes : Bytes) :
    OrFailed error (frame.toValue (.failing error) bytes) (frame.toValue .closed bytes) := by
  cases frame with
  | list => exact .same _
  | object => exact orFailed_skipKey bytes

theorem orFailed_enter (frame : Frame) (bytes : Bytes) :
    OrFailed error (frame.enter (.failing error) bytes) (frame.enter .closed bytes) := by
  rw [Frame.enter, Frame.enter]
  split
  · exact orFailed_fault _
  · split
    · exact .same _
    · exact (orFailed_toValue frame _).bind_ok

theorem orFailed_advance (frame : Frame) (bytes : Bytes) :
    OrFailed error (frame.advance (.failing error) bytes) (frame.advance .closed bytes) := by
  rw [Frame.advance, Frame.advance]
  split
  · exact orFailed_fault _
  · split
    · exact (orFailed_toValue frame _).bind_ok
    · exact .same _

theorem orFailed_skipScalar (b : UInt8) (bytes : Bytes) :
    OrFailed error (skipScalar (.failing error) b bytes) (skipScalar .closed b bytes) := by
  rw [skipScalar, skipScalar]
  split
  · exact orFailed_readLetters _ _
  split
  · exact orFailed_readLetters _ _
  split
  · exact orFailed_readLetters _ _
  split
  · exact orFailed_skipNumber _
  split
  · exact orFailed_skipNumber _
  split
  · exact orFailed_skipText _
  · exact .same _

theorem orFailed_skipFrames (stage : Stage) (frames : List Frame) (bytes : Bytes) :
    OrFailed error (skipFrames (.failing error) stage frames bytes)
      (skipFrames .closed stage frames bytes) := by
  induction hn : bytes.length using Nat.strongRecOn generalizing stage frames bytes with
  | ind n ih =>
    subst hn
    cases stage with
    | value =>
      rw [skipFrames_value, skipFrames_value]
      split
      · exact orFailed_fault _
      · rename_i b rest hb
        have hl := length_of_skipBlanks hb
        split
        · rename_i frame _
          refine (orFailed_enter frame rest).bind fun next hnext => ?_
          exact ih _ (Nat.lt_of_le_of_lt (Frame.length_of_enter hnext) hl) _ _ _ rfl
        · refine (orFailed_skipScalar b rest).bind fun rest' hrest => ?_
          exact ih _ (Nat.lt_of_le_of_lt (length_of_skipScalar hrest) hl) _ _ _ rfl
    | after =>
      cases frames with
      | nil =>
        rw [skipFrames, skipFrames]
        exact .same _
      | cons frame frames =>
        rw [skipFrames_after, skipFrames_after]
        refine (orFailed_advance frame bytes).bind fun next hnext => ?_
        exact ih _ (Frame.length_of_advance hnext) _ _ _ rfl

/-! ### Values of another type -/

theorem orFailed_readFound (b : UInt8) (rest : Bytes) :
    OrFailed error (readFound (.failing error) b rest) (readFound .closed b rest) := by
  rw [readFound, readFound]
  split
  · exact (orFailed_readLetters _ _).bind_ok
  split
  · exact (orFailed_readLetters _ _).bind_ok
  split
  · exact (orFailed_readLetters _ _).bind_ok
  split
  · exact (orFailed_readNumber _ _).bind_ok
  split
  · exact (orFailed_readNumber _ _).bind_ok
  split
  · exact (orFailed_readText _).bind_ok
  · exact .same _

theorem orFailed_wrongType {α : Type} (wanted : Wanted) (b : UInt8) (rest : Bytes) :
    OrFailed (α := α) error (.error (wrongType (.failing error) wanted b rest))
      (.error (wrongType .closed wanted b rest)) := by
  have h : OrFailed error (readFound (.failing error) b rest) (readFound .closed b rest) :=
    orFailed_readFound b rest
  -- the value that is refused is read first, and the failure may be in it
  rw [wrongType, wrongType]
  generalize readFound (.failing error) b rest = x at h
  cases h with
  | same => exact .same _
  | failed mark => exact .failed mark _

/-! ### Readers -/

/-- The reader comes to the same, or to the failure to read on. -/
def Reader.Persists {α : Type} (r : Reader α) : Prop :=
  ∀ (error : SystemError) (bytes : Bytes),
    OrFailed error (r.read (.failing error) bytes) (r.read .closed bytes)

theorem orFailed_readValue {α : Type} {bytes : Bytes}
    {read read' : UInt8 → Bytes → Except Fault (α × Bytes)}
    (h : ∀ b rest, OrFailed error (read b rest) (read' b rest)) :
    OrFailed error (readValue (.failing error) bytes read) (readValue .closed bytes read') := by
  rw [readValue, readValue]
  split
  · exact orFailed_fault _
  · exact h _ _

namespace Reader

variable {α β : Type} {r : Reader α}

theorem Persists.map (h : r.Persists) (f : α → β) : (r.map f).Persists :=
  fun error bytes => (h error bytes).bind_ok

theorem string_persists : string.Persists := by
  intro error bytes
  refine orFailed_readValue fun b rest => ?_
  split
  · exact orFailed_readText rest
  · exact orFailed_wrongType _ _ _

theorem boolean_persists : boolean.Persists := by
  intro error bytes
  refine orFailed_readValue fun b rest => ?_
  split
  · exact (orFailed_readLetters _ _).bind_ok
  split
  · exact (orFailed_readLetters _ _).bind_ok
  · exact orFailed_wrongType _ _ _

theorem optional_persists (h : r.Persists) : r.optional.Persists := by
  intro error bytes
  dsimp only [optional]
  split
  · exact orFailed_fault _
  · split
    · exact (orFailed_readLetters _ _).bind_ok
    · exact (h error _).bind_ok

end Reader

/-! ### Lists -/

theorem orFailed_nextElement (first : Bool) (bytes : Bytes) :
    OrFailed error (nextElement (.failing error) first bytes) (nextElement .closed first bytes) := by
  rw [nextElement, nextElement]
  split
  · exact orFailed_fault _
  split
  · exact .same _
  split
  · exact .same _
  split
  · split
    · exact orFailed_fault _
    · exact .same _
  · exact .same _

theorem orFailed_closeList (bytes : Bytes) :
    OrFailed error (closeList (.failing error) bytes) (closeList .closed bytes) := by
  rw [closeList, closeList]
  split
  · exact orFailed_fault _
  · exact .same _

theorem orFailed_readElements {α : Type} {r : Reader α} (h : r.Persists) (first : Bool)
    (done : List α) (bytes : Bytes) :
    OrFailed error (readElements r (.failing error) first done bytes)
      (readElements r .closed first done bytes) := by
  induction hn : bytes.length using Nat.strongRecOn generalizing first done bytes with
  | ind n ih =>
    subst hn
    rw [readElements_eq, readElements_eq]
    refine (orFailed_nextElement first bytes).bind fun next hnext => ?_
    obtain ⟨stage, rest⟩ := next
    cases stage with
    | after => exact .same _
    | value =>
      refine (h error rest).bind fun read hread => ?_
      have hl := Nat.lt_of_lt_of_le (r.shrinks hread) (length_of_nextElement hnext)
      exact ih _ hl _ _ _ rfl

theorem Reader.list_persists {α : Type} {r : Reader α} (h : r.Persists) : r.list.Persists := by
  intro error bytes
  refine orFailed_readValue fun b rest => ?_
  split
  · refine (orFailed_readElements h true [] rest).bind fun read _ => ?_
    exact (orFailed_closeList read.2).bind_ok
  · exact orFailed_wrongType _ _ _

/-! ### Records -/

theorem orFailed_nextKey (first : Bool) (bytes : Bytes) :
    OrFailed error (Record.nextKey (.failing error) first bytes)
      (Record.nextKey .closed first bytes) := by
  rw [Record.nextKey, Record.nextKey]
  split
  · exact orFailed_fault _
  split
  · exact .same _
  split
  · exact .same _
  split
  · split
    · exact orFailed_fault _
    · exact .same _
  · exact .same _

theorem orFailed_closeObject (bytes : Bytes) :
    OrFailed error (Record.closeObject (.failing error) bytes)
      (Record.closeObject .closed bytes) := by
  rw [Record.closeObject, Record.closeObject]
  split
  · exact orFailed_fault _
  · exact .same _

namespace Record

variable {σ α : Type} {r : Record σ α}

/-- The readers of the fields come to the same, or to the failure to read on. -/
def Persists (r : Record σ α) : Prop :=
  ∀ field ∈ r.fields, field.value.Persists

theorem orFailed_readMember (h : r.Persists) (seen : List String) (s : σ) (bytes : Bytes) :
    OrFailed error (r.readMember (.failing error) seen s bytes)
      (r.readMember .closed seen s bytes) := by
  refine (orFailed_readText bytes).bind fun key _ => ?_
  dsimp only
  split
  · rename_i field hf
    have hfield : OrFailed error (readField (.failing error) field seen s key.2)
        (readField .closed field seen s key.2) := by
      rw [readField, readField]
      split
      · exact .same _
      · refine (orFailed_readColon key.2).bind fun rest _ => ?_
        exact (h field (List.mem_of_find?_eq_some hf) error rest).bind_ok
    exact hfield.bind_ok
  · have hskip : OrFailed error (skipField (.failing error) key.2) (skipField .closed key.2) :=
      (orFailed_readColon key.2).bind fun rest _ => orFailed_skipFrames .value [] rest
    exact hskip.bind_ok

theorem orFailed_readMembers (h : r.Persists) (first : Bool) (seen : List String) (s : σ)
    (bytes : Bytes) :
    OrFailed error (r.readMembers (.failing error) first seen s bytes)
      (r.readMembers .closed first seen s bytes) := by
  induction hn : bytes.length using Nat.strongRecOn generalizing first seen s bytes with
  | ind n ih =>
    subst hn
    rw [readMembers_eq, readMembers_eq]
    refine (orFailed_nextKey first bytes).bind fun next hnext => ?_
    obtain ⟨stage, rest⟩ := next
    cases stage with
    | after => exact .same _
    | value =>
      refine (orFailed_readMember h seen s rest).bind fun read hread => ?_
      have hl := Nat.lt_of_lt_of_le (length_of_readMember hread) (length_of_nextKey hnext)
      exact ih _ hl _ _ _ _ rfl

theorem orFailed_readObject (h : r.Persists) (bytes : Bytes) :
    OrFailed error (r.readObject (.failing error) bytes) (r.readObject .closed bytes) := by
  refine (orFailed_readMembers h true [] r.start bytes).bind fun read _ => ?_
  dsimp only
  split
  · exact (orFailed_closeObject read.2).bind_ok
  · exact .same _

theorem orFailed_readFields {fields : List (Field σ)} (h : ∀ field ∈ fields, field.value.Persists)
    (index : Nat) (s : σ) (bytes : Bytes) :
    OrFailed error (r.readFields (.failing error) index fields s bytes)
      (r.readFields .closed index fields s bytes) := by
  induction fields generalizing index s bytes with
  | nil => exact .same _
  | cons field fields ih =>
    refine (orFailed_nextElement (index == 0) bytes).bind fun next _ => ?_
    split
    · exact .same _
    · refine (h field List.mem_cons_self error _).bind fun read _ => ?_
      exact ih (fun f hf => h f (List.mem_cons_of_mem field hf)) _ _ _

theorem orFailed_readList (h : r.Persists) (bytes : Bytes) :
    OrFailed error (r.readList (.failing error) bytes) (r.readList .closed bytes) := by
  refine (orFailed_readFields h 0 r.start bytes).bind fun read _ => ?_
  dsimp only
  split
  · exact (orFailed_closeList read.2).bind_ok
  · exact .same _

theorem reader_persists (h : r.Persists) : r.reader.Persists := by
  intro error bytes
  refine orFailed_readValue fun b rest => ?_
  split
  · exact orFailed_readList h rest
  split
  · exact orFailed_readObject h rest
  · exact orFailed_wrongType _ _ _

end Record

/-! ### Whole inputs -/

/-- Where the bytes alone would hold a value, the failure is found behind it. -/
theorem Reader.Persists.readAll_failing {α : Type} {r : Reader α} (h : r.Persists) (error : SystemError)
    (bytes : Bytes) : ∃ fault, r.readAll (.failing error) bytes = .error fault ∧
      (fault.cause = .io error ∨ r.readAll .closed bytes = .error fault) := by
  rw [readAll, readAll]
  split
  · -- nothing but blanks, and the failure behind them
    exact ⟨_, rfl, .inl rfl⟩
  · rename_i b rest _
    have hread := h error (b :: rest)
    generalize r.read (.failing error) (b :: rest) = x at hread
    generalize r.read .closed (b :: rest) = y at hread
    cases hread with
    | failed mark => exact ⟨_, rfl, .inl rfl⟩
    | same =>
      rcases x with fault | ⟨v, rest'⟩
      · exact ⟨fault, rfl, .inr rfl⟩
      · -- the value is complete, and what follows is read up to the end or to anything else
        simp only [bind, Except.bind]
        cases skipBlanks rest' with
        | nil => exact ⟨_, rfl, .inl rfl⟩
        | cons c more => exact ⟨_, rfl, .inr rfl⟩

/-- A whole input is never read from a stream that fails. -/
theorem Reader.Persists.parse_failingAfter {α : Type} {r : Reader α} (h : r.Persists) (bytes : Bytes)
    (error : SystemError) : ∃ e, r.parse (.failingAfter bytes error) = .error e ∧
      (e.cause = .io error ∨ r.parse (.ofBytes bytes) = .error e) := by
  obtain ⟨fault, hf, hcause⟩ := h.readAll_failing error bytes
  refine ⟨⟨fault.cause, fault.mark.place? bytes .stream⟩, parse_of_error hf, ?_⟩
  exact hcause.imp id fun hclosed => parse_of_error hclosed

end BuildFleet.Json
