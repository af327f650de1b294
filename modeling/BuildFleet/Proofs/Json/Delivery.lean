import BuildFleet.Proofs.Json.Placed

/-!
# JSON — a text in memory and a stream

A text in memory and a stream of the same bytes go through different states: the one has an index and
scans strings, the other holds a byte back and counts as it goes.  They are *abreast* if the same bytes are
ahead of both.  What a parser makes of the two then differs in the place of an error alone, and there in one
byte at most (`Place.Near`): a stream has to take a byte to look at it.

* `Reader.Keeps`: a reader keeps the bytes ahead UTF-8, and its faults have a place.
* `Reader.string_keeps`, `Reader.list_keeps`, `Record.reader_keeps` and so on: readers are such, if
  those of their parts are.
* `Reader.Keeps.alike`: the parser of such a reader keeps a text and a stream abreast.
* `Reader.Keeps.parse_agree`: what it makes of a whole input.
-/

namespace BuildFleet.Json
open Text.Utf8

/-! ### Places -/

/-- The place of a text in memory counts some bytes, and that of a stream the same or one more. -/
def Place.Near (bytes : Bytes) (text stream : Place) : Prop :=
  ∃ k ≤ bytes.length, text = Place.after (bytes.take k) ∧
    (stream = Place.after (bytes.take k) ∨
      k < bytes.length ∧ stream = Place.after (bytes.take (k + 1)))

theorem Mark.Placed.near {mark : Mark} (h : mark.Placed) (bytes : Bytes) :
    ∃ text stream, mark.place? bytes .text = some text ∧ mark.place? bytes .stream = some stream ∧
      Place.Near bytes text stream := by
  cases mark with
  | nowhere => exact h.elim
  | behind => exact h.elim
  | consumed left => exact ⟨_, _, rfl, rfl, _, Nat.sub_le _ left, rfl, .inl rfl⟩
  | peeked left => exact ⟨_, _, rfl, rfl, _, Nat.sub_le _ (left - 1), rfl, .inl rfl⟩
  | looked left =>
    refine ⟨_, _, rfl, rfl, _, Nat.sub_le _ left, rfl, ?_⟩
    -- at the end of the bytes there is none left to be looked at
    by_cases hl : bytes.length - (left - 1) = bytes.length - left
    · refine .inl ?_
      rw [Mark.counted, hl]
    · have hnext : bytes.length - (left - 1) = bytes.length - left + 1 := by omega
      refine .inr ⟨?_, ?_⟩
      · show bytes.length - left < bytes.length
        omega
      · show Place.after (bytes.take (bytes.length - (left - 1))) = _
        rw [hnext]

/-! ### Values of another type -/

theorem placed_readFound {b : UInt8} {rest : Bytes} (h : Valid (b :: rest)) :
    Meets (fun found => found.2.Placed) (readFound .closed b rest) := by
  rw [readFound]
  split
  · exact (placed_readLetters _ _).bind fun _ _ => trivial
  split
  · exact (placed_readLetters _ _).bind fun _ _ => trivial
  split
  · exact (placed_readLetters _ _).bind fun _ _ => trivial
  split
  · exact (placed_readNumber _ _).bind fun _ _ => trivial
  split
  · exact (placed_readNumber _ _).bind fun _ _ => trivial
  split
  · rename_i hq
    exact (meets_readText (valid_of_beq h hq (by decide))).bind fun _ _ => trivial
  split
  · exact trivial
  split <;> exact trivial

theorem placed_wrongType {b : UInt8} {rest : Bytes} (h : Valid (b :: rest)) (wanted : Wanted) :
    (wrongType .closed wanted b rest).mark.Placed := by
  have hf := placed_readFound h
  rw [wrongType]
  split <;> (rename_i heq; rw [heq] at hf; exact hf)

/-! ### Readers -/

/-- The bytes ahead are kept UTF-8, and each fault has a place. -/
def Reader.Keeps {α : Type} (r : Reader α) : Prop :=
  ∀ bytes, Valid bytes → Meets (fun read => Valid read.2) (r.read .closed bytes)

theorem meets_readValue {α : Type} {bytes : Bytes} {read : UInt8 → Bytes → Except Fault (α × Bytes)}
    (h : Valid bytes)
    (hread : ∀ b rest, Valid (b :: rest) → Meets (fun read => Valid read.2) (read b rest)) :
    Meets (fun read => Valid read.2) (readValue .closed bytes read) := by
  rw [readValue]
  split
  · exact trivial
  · rename_i b rest hb
    exact hread b rest (valid_of_skipBlanks h hb)

namespace Reader

variable {α β : Type} {r : Reader α}

theorem Keeps.map (h : r.Keeps) (f : α → β) : (r.map f).Keeps := by
  intro bytes hv
  exact (h bytes hv).bind fun _ hread => hread

theorem string_keeps : string.Keeps := by
  intro bytes hv
  refine meets_readValue hv fun b rest hb => ?_
  split
  · rename_i hq
    exact meets_readText (valid_of_beq hb hq (by decide))
  · exact placed_wrongType hb _

theorem boolean_keeps : boolean.Keeps := by
  intro bytes hv
  refine meets_readValue hv fun b rest hb => ?_
  split
  · rename_i ht
    have hrest : Valid rest := valid_of_beq hb ht (by decide)
    exact (meets_readLetters endsPlain_restOfTrue hrest).bind fun _ h => h
  · split
    · rename_i hf
      have hrest : Valid rest := valid_of_beq hb hf (by decide)
      exact (meets_readLetters endsPlain_restOfFalse hrest).bind fun _ h => h
    · exact placed_wrongType hb _

theorem optional_keeps (h : r.Keeps) : r.optional.Keeps := by
  intro bytes hv
  dsimp only [optional]
  split
  · exact trivial
  · rename_i b rest hb
    have hbrest : Valid (b :: rest) := valid_of_skipBlanks hv hb
    split
    · rename_i hn
      have hrest : Valid rest := valid_of_beq hbrest hn (by decide)
      exact (meets_readLetters endsPlain_restOfNull hrest).bind fun _ h => h
    · exact (h _ hbrest).bind fun _ hread => hread

end Reader

/-! ### Lists -/

theorem meets_nextElement {first : Bool} {bytes : Bytes} (h : Valid bytes) :
    Meets (fun next => Valid next.2) (nextElement .closed first bytes) := by
  rw [nextElement]
  split
  · exact trivial
  · rename_i b rest hb
    have hbrest : Valid (b :: rest) := valid_of_skipBlanks h hb
    split
    · exact hbrest
    split
    · exact hbrest
    split
    · rename_i hc
      split
      · exact trivial
      · rename_i c more hmore
        split
        · exact trivial
        · exact valid_of_skipBlanks (valid_of_beq hbrest hc (by decide)) hmore
    · exact trivial

theorem meets_closeList {bytes : Bytes} (h : Valid bytes) :
    Meets Valid (closeList .closed bytes) := by
  rw [closeList]
  split
  · exact trivial
  · rename_i b rest hb
    split
    · rename_i hc
      exact valid_of_beq (valid_of_skipBlanks h hb) hc (by decide)
    · split
      · split
        · exact trivial
        · split <;> exact trivial
      · exact trivial

theorem meets_readElements {α : Type} {r : Reader α} (h : r.Keeps) {first : Bool} {done : List α}
    {bytes : Bytes} (hv : Valid bytes) :
    Meets (fun read => Valid read.2) (readElements r .closed first done bytes) := by
  generalize he : Ending.closed = e
  fun_induction readElements r e first done bytes with
  | case1 first done bytes fault hn =>
    subst he
    exact (meets_nextElement hv).placed hn
  | case2 first done bytes rest hn =>
    subst he
    exact (meets_nextElement hv).value hn
  | case3 first done bytes rest hn fault hr =>
    subst he
    exact (h rest ((meets_nextElement hv).value hn)).placed hr
  | case4 first done bytes rest hn v rest' hr ih =>
    subst he
    exact ih ((h rest ((meets_nextElement hv).value hn)).value hr)

theorem Reader.list_keeps {α : Type} {r : Reader α} (h : r.Keeps) : r.list.Keeps := by
  intro bytes hv
  refine meets_readValue hv fun b rest hb => ?_
  split
  · rename_i ho
    have hrest : Valid rest := valid_of_beq hb ho (by decide)
    refine (meets_readElements h hrest).bind fun read hread => ?_
    exact (meets_closeList hread).bind fun _ h => h
  · exact placed_wrongType hb _

/-! ### Records -/

theorem placed_faultAtEnd (closing : UInt8) (cause : Cause) (bytes : Bytes) :
    (Record.faultAtEnd closing cause bytes).mark.Placed := by
  rw [Record.faultAtEnd]
  split
  · exact trivial
  · split <;> exact trivial

theorem meets_nextKey {first : Bool} {bytes : Bytes} (h : Valid bytes) :
    Meets (fun next => Valid next.2) (Record.nextKey .closed first bytes) := by
  rw [Record.nextKey]
  split
  · exact trivial
  · rename_i b rest hb
    have hbrest : Valid (b :: rest) := valid_of_skipBlanks h hb
    split
    · exact hbrest
    split
    · split
      · rename_i hq
        exact valid_of_beq hbrest hq (by decide)
      · exact trivial
    split
    · rename_i hc
      split
      · exact trivial
      · rename_i c more hmore
        split
        · rename_i hq
          have hrest : Valid rest := valid_of_beq hbrest hc (by decide)
          exact valid_of_beq (valid_of_skipBlanks hrest hmore) hq (by decide)
        · split <;> exact trivial
    · exact trivial

theorem meets_closeObject {bytes : Bytes} (h : Valid bytes) :
    Meets Valid (Record.closeObject .closed bytes) := by
  rw [Record.closeObject]
  split
  · exact trivial
  · rename_i b rest hb
    split
    · rename_i hc
      exact valid_of_beq (valid_of_skipBlanks h hb) hc (by decide)
    · split <;> exact trivial

namespace Record

variable {σ α : Type} {r : Record σ α}

/-- The readers of the fields keep the bytes ahead UTF-8, and their faults have a place. -/
def Keeps (r : Record σ α) : Prop :=
  ∀ field ∈ r.fields, field.value.Keeps

theorem meets_readMember (h : r.Keeps) {seen : List String} {s : σ} {bytes : Bytes}
    (hv : Valid bytes) : Meets (fun read => Valid read.2) (r.readMember .closed seen s bytes) := by
  refine (meets_readText hv).bind fun key hkey => ?_
  dsimp only
  split
  · rename_i field hf
    have hfield : Meets (fun read => Valid read.2) (readField .closed field seen s key.2) := by
      rw [readField]
      split
      · exact placed_faultAtEnd _ _ _
      · refine (meets_readColon hkey).bind fun rest hrest => ?_
        exact (h field (List.mem_of_find?_eq_some hf) rest hrest).bind fun _ hread => hread
    exact hfield.bind fun _ hread => hread
  · have hskip : Meets Valid (skipField .closed key.2) :=
      (meets_readColon hkey).bind fun rest hrest => meets_skipValue hrest
    exact hskip.bind fun _ hrest => hrest

theorem meets_readMembers (h : r.Keeps) {first : Bool} {seen : List String} {s : σ} {bytes : Bytes}
    (hv : Valid bytes) :
    Meets (fun read => Valid read.2) (r.readMembers .closed first seen s bytes) := by
  generalize he : Ending.closed = e
  fun_induction readMembers r e first seen s bytes with
  | case1 first seen s bytes fault hk =>
    subst he
    exact (meets_nextKey hv).placed hk
  | case2 first seen s bytes rest hk =>
    subst he
    exact (meets_nextKey hv).value hk
  | case3 first seen s bytes rest hk fault hm =>
    subst he
    exact (meets_readMember h ((meets_nextKey hv).value hk)).placed hm
  | case4 first seen s bytes rest hk seen' s' rest' hm ih =>
    subst he
    exact ih ((meets_readMember h ((meets_nextKey hv).value hk)).value hm)

theorem meets_readObject (h : r.Keeps) {bytes : Bytes} (hv : Valid bytes) :
    Meets (fun read => Valid read.2) (r.readObject .closed bytes) := by
  refine (meets_readMembers h hv).bind fun read hread => ?_
  dsimp only
  split
  · exact (meets_closeObject hread).bind fun _ hrest => hrest
  · exact placed_faultAtEnd _ _ _

theorem meets_readFields {fields : List (Field σ)} (h : ∀ field ∈ fields, field.value.Keeps)
    {index : Nat} {s : σ} {bytes : Bytes} (hv : Valid bytes) :
    Meets (fun read => Valid read.2) (r.readFields .closed index fields s bytes) := by
  induction fields generalizing index s bytes with
  | nil => exact hv
  | cons field fields ih =>
    refine (meets_nextElement hv).bind fun next hnext => ?_
    split
    · exact placed_faultAtEnd _ _ _
    · refine (h field List.mem_cons_self _ hnext).bind fun read hread => ?_
      exact ih (fun f hf => h f (List.mem_cons_of_mem field hf)) hread

theorem meets_readList (h : r.Keeps) {bytes : Bytes} (hv : Valid bytes) :
    Meets (fun read => Valid read.2) (r.readList .closed bytes) := by
  refine (meets_readFields h hv).bind fun read hread => ?_
  dsimp only
  split
  · exact (meets_closeList hread).bind fun _ hrest => hrest
  · exact placed_faultAtEnd _ _ _

theorem reader_keeps (h : r.Keeps) : r.reader.Keeps := by
  intro bytes hv
  refine meets_readValue hv fun b rest hb => ?_
  split
  · rename_i ho
    exact meets_readList h (valid_of_beq hb ho (by decide))
  · split
    · rename_i ho
      exact meets_readObject h (valid_of_beq hb ho (by decide))
    · exact placed_wrongType hb _

end Record

/-! ### Side by side -/

/-- A text in memory and a stream of it have the same bytes ahead, which are UTF-8. -/
def Abreast (text : Bytes) (a : Slice) (b : Stream) : Prop :=
  ∃ ahead, Valid ahead ∧ Slice.At text a ahead ∧ ∃ looked, Stream.At text .closed b ahead looked

/-- The same is made of a text in memory and of a stream: the same value, with the two abreast again; or an
error from the same cause, at places near each other. -/
inductive Alike (text : Bytes) {α : Type} :
    EStateM.Result Error Slice α → EStateM.Result Error Stream α → Prop where
  | ok {v : α} {a : Slice} {b : Stream} : Abreast text a b → Alike text (.ok v a) (.ok v b)
  | error {cause : Cause} {here there : Place} {a : Slice} {b : Stream} : Place.Near text here there →
      Alike text (.error ⟨cause, some here⟩ a) (.error ⟨cause, some there⟩ b)

section
variable {α β : Type} {text ahead : Bytes} {a : Slice} {b : Stream}

theorem Mark.Placed.near_of_place? {mark : Mark} (h : mark.Placed) {here there : Place}
    (hhere : (⟨text, .text, .closed⟩ : Input).place? mark = some here)
    (hthere : (⟨text, .stream, .closed⟩ : Input).place? mark = some there) : Place.Near text here there := by
  obtain ⟨here', there', hhere', hthere', hnear⟩ := h.near text
  obtain rfl := Option.some.inj (hhere'.symm.trans hhere)
  obtain rfl := Option.some.inj (hthere'.symm.trans hthere)
  exact hnear

/-- What follows one function of the bytes ahead, in a text as in a stream, comes to the same. -/
theorem Follows.alike {x : Except Fault (α × Bytes)} {r : EStateM.Result Error Slice α}
    {r' : EStateM.Result Error Stream α} (hx : Meets (fun read => Valid read.2) x)
    (h : Follows ⟨text, .text, .closed⟩ (Slice.simulation text).At (Given (Slice.simulation text).Read) x r)
    (h' : Follows ⟨text, .stream, .closed⟩ (Stream.simulation text .closed).At
      (Given (Stream.simulation text .closed).Read) x r') : Alike text r r' := by
  cases h with
  | ok hv =>
    obtain ⟨w, rfl, rfl, _, hat⟩ := hv
    cases h' with
    | ok hv' =>
      obtain ⟨w', hw, rfl, hsees⟩ := hv'
      obtain rfl := Except.ok.inj hw
      exact .ok ⟨w.2, hx, hat, hsees⟩
  | placed hplace =>
    cases h' with
    | ok hv' =>
      obtain ⟨w', hw, -⟩ := hv'
      cases hw
    | placed hplace' => exact .error (Mark.Placed.near_of_place? hx hplace hplace')
    | failed herror => cases herror
  | failed herror => cases herror

/-- **A reader keeps a text and a stream abreast.** -/
theorem Reader.Keeps.alike {r : Reader α} (h : r.Keeps) (hab : Abreast text a b) :
    Alike text (r.parser a) (r.parser b) := by
  obtain ⟨ahead, hvalid, hslice, hstream⟩ := hab
  exact Follows.alike (h ahead hvalid) (r.follows (Slice.sourceSimulation text) ⟨false, hslice⟩)
    (r.follows (Stream.sourceSimulation text .closed) hstream)

namespace Alike

variable {p : Parser Slice α} {p' : Parser Stream α} {q : α → Parser Slice β} {q' : α → Parser Stream β}

theorem bind (h : Alike text (p a) (p' b))
    (hnext : ∀ v a b, Abreast text a b → Alike text (q v a) (q' v b)) :
    Alike text ((p >>= q) a) ((p' >>= q') b) := by
  show Alike text (EStateM.bind p q a) (EStateM.bind p' q' b)
  rw [EStateM.bind, EStateM.bind]
  generalize p a = r at h
  generalize p' b = r' at h
  cases h with
  | ok hab => exact hnext _ _ _ hab
  | error hnear => exact .error hnear

theorem placed (h : Alike text (p a) (p' b)) : Alike text (Parser.placed p a) (Parser.placed p' b) := by
  rw [Parser.placed, Parser.placed]
  generalize p a = r at h
  generalize p' b = r' at h
  cases h with
  | ok hab => exact .ok hab
  | error hnear => exact .error hnear

end Alike

/-- Both look at the same byte behind blanks. -/
theorem Abreast.blanks (hab : Abreast text a b) : ∃ ahead a' b', Valid ahead ∧ Slice.At text a' ahead ∧
    Stream.At text .closed b' ahead true ∧ Parser.blanks a = .ok ahead.head? a' ∧
    Parser.blanks b = .ok ahead.head? b' := by
  obtain ⟨ahead, hvalid, hslice, hstream⟩ := hab
  have h := (Slice.simulation text).reaches_blanks ⟨false, hslice⟩
  have h' := (Stream.simulation text .closed).reaches_blanks hstream
  generalize Parser.blanks a = r at h
  generalize Parser.blanks b = r' at h'
  cases h with
  | failed _ herror => cases herror
  | ok _ hat =>
    cases h' with
    | failed _ herror => cases herror
    | ok _ hat' => exact ⟨_, _, _, valid_skipBlanks hvalid, hat, hat', rfl, rfl⟩

theorem alike_failPeeked (hslice : Slice.At text a ahead) (hstream : Stream.At text .closed b ahead true)
    (cause : Cause) :
    Alike text (Parser.failPeeked cause a : EStateM.Result Error Slice α) (Parser.failPeeked cause b) := by
  have hplaced : (Mark.peeked ahead.length).Placed := trivial
  exact .error (hplaced.near_of_place? ((Slice.simulation text).peekPlace hslice)
    ((Stream.simulation text .closed).peekPlace hstream))

/-- A whole input is read alike from both. -/
theorem Reader.Keeps.alike_whole {r : Reader α} (h : r.Keeps) (hab : Abreast text a b) :
    Alike text (r.whole a) (r.whole b) := by
  obtain ⟨ahead, a', b', hvalid, hslice, hstream, ha, hb⟩ := hab.blanks
  rw [Reader.whole, Reader.whole, Parser.behindBlanks, Parser.behindBlanks, Parser.bind_of_ok ha,
    Parser.bind_of_ok hb]
  cases ahead with
  | nil => exact alike_failPeeked hslice hstream _
  | cons c rest =>
    have hvalue := (h.alike ⟨c :: rest, hvalid, hslice, true, hstream⟩).placed
    refine hvalue.bind fun v a b hab => ?_
    obtain ⟨ahead, a', b', hvalid, hslice, hstream, ha, hb⟩ := hab.blanks
    rw [Parser.bind_of_ok ha, Parser.bind_of_ok hb]
    cases ahead with
    | nil => exact .ok ⟨[], hvalid, hslice, true, hstream⟩
    | cons c rest => exact alike_failPeeked hslice hstream _

end

/-! ### Whole inputs -/

theorem Reader.Keeps.placed_readAll {α : Type} {r : Reader α} (h : r.Keeps) {bytes : Bytes}
    (hv : Valid bytes) : Meets Anything (r.readAll .closed bytes) := by
  rw [readAll]
  split
  · exact trivial
  · rename_i b rest hb
    refine (h _ (valid_of_skipBlanks hv hb)).bind fun read _ => ?_
    dsimp only
    split
    · exact trivial
    · rename_i heq _
      cases heq
    · exact trivial

/-- A text in memory and a stream are parsed alike: to the same value, or to the same fault at
places near each other. -/
theorem Reader.Keeps.parse_agree {α : Type} {r : Reader α} (h : r.Keeps) (s : String) :
    (∃ v, r.parse (.ofString s) = .ok v ∧ r.parse (.ofBytes (encode s)) = .ok v) ∨
      ∃ cause text stream, r.parse (.ofString s) = .error ⟨cause, some text⟩ ∧
        r.parse (.ofBytes (encode s)) = .error ⟨cause, some stream⟩ ∧
        Place.Near (encode s) text stream := by
  -- the two start abreast, in front of all bytes
  have hwhole := h.alike_whole (a := .start (encode s))
    (b := .start (encode s) .closed) ⟨encode s, valid_encode s, .start _, false, .start _ _⟩
  have ht : r.parse (.ofString s) = r.whole.run (Slice.start (encode s)) := rfl
  have hs : r.parse (.ofBytes (encode s)) = r.whole.run (Stream.start (encode s) .closed) := rfl
  rw [ht, hs, Parser.run, Parser.run]
  generalize r.whole (Slice.start _) = rt at hwhole
  generalize r.whole (Stream.start _ _) = rs at hwhole
  cases hwhole with
  | ok => exact .inl ⟨_, rfl, rfl⟩
  | error hnear => exact .inr ⟨_, _, _, rfl, rfl, hnear⟩

end BuildFleet.Json
