import BuildFleet.Json.Record

/-!
# JSON — the names in a fault

A fault says what is wrong in words of its own, in words that quote the input, and in names: of the record
that was wanted, and of the field that is missing or there twice.  The names are not from the input.  They
are those that the records give themselves and their fields, also where it was a key of the input that led
to the field.

* `Cause.NamesOnly`: what is wrong is said with names of the given kind only.
* `Names`: so it is with the fault of a step, if it has one.
* `Record.reader_names`, and the lemmas on the other readers: so it is with all faults of a reader, if it is
  with those of its parts.
* `Reader.Names.parse`: and then with the errors of a whole input.
-/

namespace BuildFleet.Json

/-- The records and fields named are of a kind. -/
def Cause.NamesOnly (Known : String → Prop) : Cause → Prop
  | .invalidType _ (.record name) => Known name
  | .invalidLength _ record _ => Known record
  | .missingField field | .duplicateField field => Known field
  | _ => True

/-- Either a value, or a fault that names records and fields of a kind only. -/
def Names {α : Type} (Known : String → Prop) : Except Fault α → Prop
  | .ok _ => True
  | .error fault => fault.cause.NamesOnly Known

/-- All faults of the reader name records and fields of a kind only. -/
def Reader.Names {α : Type} (Known : String → Prop) (r : Reader α) : Prop :=
  ∀ e bytes, Json.Names Known (r.read e bytes)

/-- The record and its fields have names of a kind, and no fault of a field names others. -/
structure Record.Names {σ α : Type} (Known : String → Prop) (r : Record σ α) : Prop where
  name : Known r.name
  key : ∀ field ∈ r.fields, Known field.key
  value : ∀ field ∈ r.fields, field.value.Names Known
  lacking : ∀ s field, r.build s = .error field → Known field

variable {Known : String → Prop} {α β : Type}

theorem Names.bind {x : Except Fault α} {f : α → Except Fault β} (hx : Names Known x)
    (hf : ∀ v, Names Known (f v)) : Names Known (x >>= f) := by
  cases x with
  | error fault => exact hx
  | ok v => exact hf v

theorem Names.cause {x : Except Fault α} {fault : Fault} (h : Names Known x) (hx : x = .error fault) :
    fault.cause.NamesOnly Known := by
  subst hx
  exact h

/-- A failure of the stream names nothing. -/
theorem names_fault (e : Ending) {cause : Cause} (h : cause.NamesOnly Known) :
    (e.fault cause).cause.NamesOnly Known := by
  cases e with
  | closed => exact h
  | failing => exact trivial

theorem names_look (e : Ending) (bytes : Bytes) : Names Known (e.look bytes) := by
  rw [Ending.look.eq_def]
  split <;> exact trivial

/-! ### Words and numbers -/

theorem names_readLetters (e : Ending) (letters bytes : Bytes) :
    Names Known (readLetters e letters bytes) := by
  induction letters generalizing bytes with
  | nil => exact trivial
  | cons letter letters ih =>
    cases bytes with
    | nil => exact names_fault e trivial
    | cons b bytes =>
      rw [readLetters]
      split
      · exact ih bytes
      · exact trivial

theorem names_missingDigit (e : Ending) {atEnd : Cause} (h : atEnd.NamesOnly Known) (bytes : Bytes) :
    (missingDigit e atEnd bytes).cause.NamesOnly Known := by
  cases bytes with
  | nil => exact names_fault e h
  | cons => exact trivial

theorem names_readWhole (e : Ending) {atEnd : Cause} (h : atEnd.NamesOnly Known) (bytes : Bytes) :
    Names Known (readWhole e atEnd bytes) := by
  rw [readWhole.eq_def]
  split
  · exact names_fault e h
  · split
    · split
      · split <;> exact trivial
      · exact trivial
    · split <;> exact trivial

theorem names_readFraction (e : Ending) {atEnd : Cause} (h : atEnd.NamesOnly Known) (bytes : Bytes) :
    Names Known (readFraction e atEnd bytes) := by
  rw [readFraction.eq_def]
  split
  · split
    · dsimp only
      split
      · exact names_missingDigit e h _
      · exact trivial
    · exact trivial
  · exact trivial

theorem names_readExponent (e : Ending) {atEnd : Cause} (h : atEnd.NamesOnly Known) (bytes : Bytes) :
    Names Known (readExponent e atEnd bytes) := by
  rw [readExponent.eq_def]
  split
  · split
    · split
      · exact names_fault e h
      · split <;> exact trivial
    · exact trivial
  · exact trivial

theorem names_readNumeral (e : Ending) (atEnd : Cause) (h : atEnd.NamesOnly Known) (bytes : Bytes) :
    Names Known (readNumeral e atEnd bytes) :=
  (names_readWhole e h bytes).bind fun whole => (names_readFraction e h whole.2).bind fun fraction =>
    (names_readExponent e h fraction.2).bind fun _ => trivial

theorem names_skipNumber (e : Ending) (bytes : Bytes) : Names Known (skipNumber e bytes) :=
  (names_readNumeral e .invalidNumber trivial bytes).bind fun n => names_look e n.2

theorem names_elim (value : Option α) {fault : Fault} (h : fault.cause.NamesOnly Known) :
    Names Known (value.elim (.error fault) .ok) := by
  cases value with
  | none => exact h
  | some => exact trivial

theorem names_found (n : Numeral) (e : Ending) (negative : Bool) (rest : Bytes) :
    Names Known (n.found e negative rest) := by
  rw [Numeral.found]
  split
  · exact trivial
  · exact (names_look e rest).bind fun _ => names_elim _ trivial

theorem names_readNumber (e : Ending) (negative : Bool) (bytes : Bytes) :
    Names Known (readNumber e negative bytes) :=
  (names_readNumeral e (.ended .value) trivial bytes).bind fun n =>
    (names_found n.1 e negative n.2).bind fun _ => trivial

/-! ### Strings -/

theorem names_readCodeUnit (e : Ending) (bytes : Bytes) : Names Known (readCodeUnit e bytes) := by
  rw [readCodeUnit.eq_def]
  split
  · split <;> exact trivial
  · exact names_fault e trivial

theorem names_continueEscape (e : Ending) (expected : UInt8) (bytes : Bytes) :
    Names Known (continueEscape e expected bytes) := by
  rw [continueEscape.eq_def]
  split
  · exact names_fault e trivial
  · split <;> exact trivial

theorem names_readUnitEscape (e : Ending) (bytes : Bytes) : Names Known (readUnitEscape e bytes) := by
  refine (names_readCodeUnit e bytes).bind fun unit => ?_
  dsimp only
  split
  · exact trivial
  · split
    · refine (names_continueEscape e backslash unit.2).bind fun rest => ?_
      refine (names_continueEscape e letterU rest).bind fun rest => ?_
      refine (names_readCodeUnit e rest).bind fun trailing => ?_
      split <;> exact trivial
    · exact trivial

theorem names_readEscape (e : Ending) (bytes : Bytes) : Names Known (readEscape e bytes) := by
  rw [readEscape.eq_def]
  split
  · exact names_fault e trivial
  · split
    · exact trivial
    · split
      · exact names_readUnitEscape e _
      · exact trivial

theorem names_skipEscape (e : Ending) (bytes : Bytes) : Names Known (skipEscape e bytes) := by
  rw [skipEscape.eq_def]
  split
  · exact names_fault e trivial
  · split
    · exact trivial
    · split
      · exact (names_readCodeUnit e _).bind fun _ => trivial
      · exact trivial

theorem names_readTextBytes (e : Ending) (done bytes : Bytes) :
    Names Known (readTextBytes e done bytes) := by
  fun_induction readTextBytes e done bytes with
  | case1 => exact names_fault e trivial
  | case2 | case5 => exact trivial
  | case3 done b rest _ _ fault h => exact (names_readEscape e rest).cause h
  | case4 _ _ _ _ _ _ _ _ ih => exact ih
  | case6 _ _ _ _ _ _ ih => exact ih

theorem names_readText (e : Ending) (bytes : Bytes) : Names Known (readText e bytes) := by
  refine (names_readTextBytes e [] bytes).bind fun read => ?_
  dsimp only
  split <;> exact trivial

theorem names_skipText (e : Ending) (bytes : Bytes) : Names Known (skipText e bytes) := by
  fun_induction skipText e bytes with
  | case1 => exact names_fault e trivial
  | case2 | case5 => exact trivial
  | case3 b rest _ _ fault h => exact (names_skipEscape e rest).cause h
  | case4 _ _ _ _ _ _ ih => exact ih
  | case6 _ _ _ _ _ ih => exact ih

/-! ### Values that are passed over -/

theorem names_readColon (e : Ending) (bytes : Bytes) : Names Known (readColon e bytes) := by
  rw [readColon]
  split
  · exact names_fault e trivial
  · split <;> exact trivial

theorem names_skipKey (e : Ending) (bytes : Bytes) : Names Known (skipKey e bytes) := by
  rw [skipKey]
  split
  · exact names_fault e trivial
  · split
    · exact (names_skipText e _).bind fun rest => names_readColon e rest
    · exact trivial

theorem names_toValue (e : Ending) (frame : Frame) (bytes : Bytes) :
    Names Known (frame.toValue e bytes) := by
  cases frame with
  | list => exact trivial
  | object => exact names_skipKey e bytes

theorem names_enter (e : Ending) (frame : Frame) (bytes : Bytes) :
    Names Known (frame.enter e bytes) := by
  rw [Frame.enter]
  split
  · exact names_fault e trivial
  · split
    · exact trivial
    · exact (names_toValue e frame _).bind fun _ => trivial

theorem names_advance (e : Ending) (frame : Frame) (bytes : Bytes) :
    Names Known (frame.advance e bytes) := by
  have hcomma : frame.missingComma.NamesOnly Known := by cases frame <;> exact trivial
  rw [Frame.advance]
  split
  · exact names_fault e trivial
  · split
    · exact (names_toValue e frame _).bind fun _ => trivial
    · split
      · exact trivial
      · exact hcomma

theorem names_skipScalar (e : Ending) (b : UInt8) (rest : Bytes) :
    Names Known (skipScalar e b rest) := by
  rw [skipScalar]
  split
  · exact names_readLetters e _ rest
  split
  · exact names_readLetters e _ rest
  split
  · exact names_readLetters e _ rest
  split
  · exact names_skipNumber e rest
  split
  · exact names_skipNumber e _
  split
  · exact names_skipText e rest
  · exact trivial

theorem names_skipFrames (e : Ending) (stage : Stage) (frames : List Frame) (bytes : Bytes) :
    Names Known (skipFrames e stage frames bytes) := by
  fun_induction skipFrames e stage frames bytes with
  | case1 => exact names_fault e trivial
  | case7 => exact trivial
  | case2 frames bytes b rest _ frame _ fault h => exact (names_enter e frame rest).cause h
  | case3 _ _ _ _ _ _ _ _ _ ih => exact ih
  | case4 _ _ _ _ _ _ _ _ _ ih => exact ih
  | case5 frames bytes b rest _ _ fault h => exact (names_skipScalar e b rest).cause h
  | case6 _ _ _ _ _ _ _ _ ih => exact ih
  | case8 bytes frame frames fault h => exact (names_advance e frame bytes).cause h
  | case9 _ _ _ _ _ ih => exact ih
  | case10 _ _ _ _ _ ih => exact ih

/-! ### Values of another type -/

theorem names_readFound (e : Ending) (b : UInt8) (rest : Bytes) : Names Known (readFound e b rest) := by
  rw [readFound]
  split
  · exact (names_readLetters e _ rest).bind fun _ => trivial
  split
  · exact (names_readLetters e _ rest).bind fun _ => trivial
  split
  · exact (names_readLetters e _ rest).bind fun _ => trivial
  split
  · exact (names_readNumber e _ rest).bind fun _ => trivial
  split
  · exact (names_readNumber e _ _).bind fun _ => trivial
  split
  · exact (names_readText e rest).bind fun _ => trivial
  split
  · exact trivial
  split <;> exact trivial

/-- Whatever was found instead, the name is that of what was wanted. -/
theorem names_wrongType (e : Ending) (wanted : Wanted)
    (h : ∀ found, (Cause.invalidType found wanted).NamesOnly Known) (b : UInt8) (rest : Bytes) :
    (wrongType e wanted b rest).cause.NamesOnly Known := by
  rw [wrongType]
  split
  · exact h _
  · rename_i heq
    exact (names_readFound e b rest).cause heq

/-! ### Readers -/

theorem names_readValue (e : Ending) (bytes : Bytes)
    {read : UInt8 → Bytes → Except Fault (α × Bytes)} (h : ∀ b rest, Names Known (read b rest)) :
    Names Known (readValue e bytes read) := by
  rw [readValue]
  split
  · exact names_fault e trivial
  · exact h _ _

namespace Reader

variable {r : Reader α}

theorem Names.map (h : r.Names Known) (f : α → β) : (r.map f).Names Known :=
  fun e bytes => (h e bytes).bind fun _ => trivial

theorem string_names : string.Names Known := by
  intro e bytes
  refine names_readValue e bytes fun b rest => ?_
  split
  · exact names_readText e rest
  · exact names_wrongType e .string (fun _ => trivial) b rest

theorem boolean_names : boolean.Names Known := by
  intro e bytes
  refine names_readValue e bytes fun b rest => ?_
  split
  · exact (names_readLetters e _ rest).bind fun _ => trivial
  · split
    · exact (names_readLetters e _ rest).bind fun _ => trivial
    · exact names_wrongType e .boolean (fun _ => trivial) b rest

theorem optional_names (h : r.Names Known) : r.optional.Names Known := by
  intro e bytes
  dsimp only [optional]
  split
  · exact names_fault e trivial
  · split
    · exact (names_readLetters e _ _).bind fun _ => trivial
    · exact (h e _).bind fun _ => trivial

end Reader

/-! ### Lists -/

theorem names_nextElement (e : Ending) (first : Bool) (bytes : Bytes) :
    Names Known (nextElement e first bytes) := by
  rw [nextElement]
  split
  · exact names_fault e trivial
  split
  · exact trivial
  split
  · exact trivial
  split
  · split
    · exact names_fault e trivial
    · split <;> exact trivial
  · exact trivial

theorem names_closeList (e : Ending) (bytes : Bytes) : Names Known (closeList e bytes) := by
  rw [closeList]
  split
  · exact names_fault e trivial
  split
  · exact trivial
  split
  · split
    · exact trivial
    · split <;> exact trivial
  · exact trivial

theorem names_readElements {r : Reader α} (h : r.Names Known) (e : Ending) (first : Bool)
    (done : List α) (bytes : Bytes) : Names Known (readElements r e first done bytes) := by
  fun_induction readElements r e first done bytes with
  | case1 first done bytes fault hn => exact (names_nextElement e first bytes).cause hn
  | case2 => exact trivial
  | case3 first done bytes rest hn fault hr => exact (h e rest).cause hr
  | case4 _ _ _ _ _ _ _ _ ih => exact ih

theorem Reader.list_names {r : Reader α} (h : r.Names Known) : r.list.Names Known := by
  intro e bytes
  refine names_readValue e bytes fun b rest => ?_
  split
  · refine (names_readElements h e true [] rest).bind fun read => ?_
    exact (names_closeList e read.2).bind fun _ => trivial
  · exact names_wrongType e .sequence (fun _ => trivial) b rest

/-! ### Records -/

namespace Record

variable {σ : Type} {r : Record σ α}

/-- The place at the end does not change what is wrong. -/
theorem names_faultAtEnd (closing : UInt8) (cause : Cause) (h : cause.NamesOnly Known)
    (bytes : Bytes) : (faultAtEnd closing cause bytes).cause.NamesOnly Known := by
  rw [faultAtEnd]
  split
  · exact h
  · split <;> exact h

theorem names_nextKey (e : Ending) (first : Bool) (bytes : Bytes) :
    Json.Names Known (nextKey e first bytes) := by
  rw [nextKey]
  split
  · exact names_fault e trivial
  split
  · exact trivial
  split
  · split <;> exact trivial
  split
  · split
    · exact names_fault e trivial
    · split
      · exact trivial
      · split <;> exact trivial
  · exact trivial

theorem names_closeObject (e : Ending) (bytes : Bytes) : Json.Names Known (closeObject e bytes) := by
  rw [closeObject]
  split
  · exact names_fault e trivial
  split
  · exact trivial
  split <;> exact trivial

theorem names_readField {field : Field σ} (hkey : Known field.key) (hvalue : field.value.Names Known)
    (e : Ending) (seen : List String) (s : σ) (bytes : Bytes) :
    Json.Names Known (readField e field seen s bytes) := by
  rw [readField]
  split
  · exact names_faultAtEnd _ (.duplicateField field.key) hkey bytes
  · refine (names_readColon e bytes).bind fun rest => ?_
    exact (hvalue e rest).bind fun _ => trivial

/-- A key of the input only leads to a field, or to none. -/
theorem names_readMember (h : r.Names Known) (e : Ending) (seen : List String) (s : σ)
    (bytes : Bytes) : Json.Names Known (r.readMember e seen s bytes) := by
  refine (names_readText e bytes).bind fun key => ?_
  dsimp only
  split
  · rename_i field hf
    have hfield : field ∈ r.fields := List.mem_of_find?_eq_some hf
    refine (names_readField (h.key field hfield) (h.value field hfield) e seen s key.2).bind ?_
    exact fun _ => trivial
  · have hskip : Json.Names Known (skipField e key.2) :=
      (names_readColon e key.2).bind fun rest => names_skipFrames e .value [] rest
    exact hskip.bind fun _ => trivial

theorem names_readMembers (h : r.Names Known) (e : Ending) (first : Bool) (seen : List String) (s : σ)
    (bytes : Bytes) : Json.Names Known (r.readMembers e first seen s bytes) := by
  fun_induction readMembers r e first seen s bytes with
  | case1 first seen s bytes fault hk => exact (names_nextKey e first bytes).cause hk
  | case2 => exact trivial
  | case3 first seen s bytes rest hk fault hm => exact (names_readMember h e seen s rest).cause hm
  | case4 _ _ _ _ _ _ _ _ _ _ ih => exact ih

theorem names_readObject (h : r.Names Known) (e : Ending) (bytes : Bytes) :
    Json.Names Known (r.readObject e bytes) := by
  refine (names_readMembers h e true [] r.start bytes).bind fun read => ?_
  dsimp only
  split
  · exact (names_closeObject e read.2).bind fun _ => trivial
  · rename_i field hfield
    exact names_faultAtEnd _ (.missingField field) (h.lacking _ field hfield) read.2

theorem names_readFields (h : r.Names Known) (e : Ending) {fields : List (Field σ)}
    (hfields : ∀ field ∈ fields, field.value.Names Known) (index : Nat) (s : σ) (bytes : Bytes) :
    Json.Names Known (r.readFields e index fields s bytes) := by
  induction fields generalizing index s bytes with
  | nil => exact trivial
  | cons field fields ih =>
    rw [List.forall_mem_cons] at hfields
    refine (names_nextElement e (index == 0) bytes).bind fun next => ?_
    split
    · exact names_faultAtEnd _ (.invalidLength index r.name r.fields.length) h.name _
    · exact (hfields.1 e _).bind fun read => ih hfields.2 (index + 1) _ read.2

theorem names_readList (h : r.Names Known) (e : Ending) (bytes : Bytes) :
    Json.Names Known (r.readList e bytes) := by
  refine (names_readFields h e h.value 0 r.start bytes).bind fun read => ?_
  dsimp only
  split
  · exact (names_closeList e read.2).bind fun _ => trivial
  · rename_i field hfield
    exact names_faultAtEnd _ (.missingField field) (h.lacking _ field hfield) read.2

/-- The names in the faults of a record are its own, and those of its fields. -/
theorem reader_names (h : r.Names Known) : r.reader.Names Known := by
  intro e bytes
  refine names_readValue e bytes fun b rest => ?_
  split
  · exact names_readList h e rest
  · split
    · exact names_readObject h e rest
    · exact names_wrongType e (.record r.name) (fun _ => h.name) b rest

end Record

/-! ### Whole inputs -/

theorem Reader.Names.readAll {r : Reader α} (h : r.Names Known) (e : Ending) (bytes : Bytes) :
    Json.Names Known (r.readAll e bytes) := by
  rw [Reader.readAll]
  split
  · cases e <;> exact trivial
  · refine (h e _).bind fun read => ?_
    dsimp only
    split <;> exact trivial

/-- The error of a whole input names records and fields of the kind only. -/
theorem Reader.Names.parse {r : Reader α} (h : r.Names Known) {input : Input} {error : Error}
    (hp : r.parse input = .error error) : error.cause.NamesOnly Known := by
  rw [Reader.parse_eq] at hp
  obtain ⟨fault, hf, rfl⟩ := Input.answer_eq_error_iff.mp hp
  exact (h.readAll input.ending input.bytes).cause hf

end BuildFleet.Json
