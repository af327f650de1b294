import BuildFleet.Json.Sequence

/-!
# JSON — records

A record is a value with named fields.  It is spelled as an object, with the fields in any order and
others between them, or as a list of exactly the fields in their own order.

In an object, the value of a key that names no field is skipped, and a second value for a field is a
fault.  A field that is not there is a matter of the record: `Record.build` says whether what was
read is enough.

An error that has no mark of its own is found only once the record is being closed: it is placed behind
its last bracket or brace, if nothing else is there (`Record.faultAtEnd`, `Parser.failAtEnd`).
-/

namespace BuildFleet.Json

/-- A field: its key, and the reader of its value, which puts it into what was read so far. -/
structure Field (σ : Type) where
  key : String
  value : Reader (σ → σ)

/-- How a value of type `α` is read from its fields, collected in `σ`. -/
structure Record (σ α : Type) where
  /-- What the record is called in messages. -/
  name : String
  fields : List (Field σ)
  /-- No field read. -/
  start : σ
  /-- The value, or the first field that it lacks. -/
  build : σ → Except String α

namespace Record

variable {σ α : Type}

/-- A fault about the fields read so far.  Its place is where the list or object would end: after
the closing byte, if that is what follows. -/
def faultAtEnd (closing : UInt8) (cause : Cause) (bytes : Bytes) : Fault :=
  match skipBlanks bytes with
  | [] => ⟨cause, .consumed 0⟩
  | b :: rest =>
    if b == closing then ⟨cause, .consumed rest.length⟩
    else ⟨cause, .looked (rest.length + 1)⟩

/-! ### As an object -/

/-- The rest from the quote of the next key on, or from the closing brace on if there is none. -/
def nextKey (e : Ending) (first : Bool) (bytes : Bytes) : Except Fault (Stage × Bytes) :=
  match skipBlanks bytes with
  | [] => .error (e.fault (.ended .object))
  | b :: rest =>
    if b == closeBrace then
      .ok (.after, b :: rest)
    else if first then
      if b == quote then .ok (.value, rest)
      else .error ⟨.keyMustBeString, .peeked (rest.length + 1)⟩
    else if b == comma then
      match skipBlanks rest with
      | [] => .error (e.fault (.ended .value))
      | c :: rest =>
        if c == quote then .ok (.value, rest)
        else if c == closeBrace then .error ⟨.trailingComma, .peeked (rest.length + 1)⟩
        else .error ⟨.keyMustBeString, .peeked (rest.length + 1)⟩
    else
      .error ⟨.expectedObjectCommaOrEnd, .peeked (rest.length + 1)⟩

theorem length_of_nextKey {e : Ending} {first : Bool} {bytes rest : Bytes} {stage : Stage}
    (h : nextKey e first bytes = .ok (stage, rest)) : rest.length ≤ bytes.length := by
  unfold nextKey at h
  split at h
  · cases h
  · rename_i hb
    have hl := length_of_skipBlanks hb
    split at h
    · cases h
      exact hl
    · split at h
      · split at h
        · cases h
          exact Nat.le_of_lt hl
        · cases h
      · split at h
        · split at h
          · cases h
          · rename_i hc
            have hl' := length_of_skipBlanks hc
            split at h
            · cases h
              exact Nat.le_of_lt (Nat.lt_trans hl' hl)
            · split at h <;> cases h
        · cases h

/-- The rest after the closing brace. -/
def closeObject (e : Ending) (bytes : Bytes) : Except Fault Bytes :=
  match skipBlanks bytes with
  | [] => .error (e.fault (.ended .object))
  | b :: rest =>
    if b == closeBrace then .ok rest
    else if b == comma then .error ⟨.trailingComma, .peeked (rest.length + 1)⟩
    else .error ⟨.trailingCharacters, .peeked (rest.length + 1)⟩

/-- The member of a known field, after its key: its value put into what was read so far. -/
def readField (e : Ending) (field : Field σ) (seen : List String) (s : σ) (bytes : Bytes) :
    Except Fault (σ × Bytes) :=
  if seen.contains field.key then
    .error (faultAtEnd closeBrace (.duplicateField field.key) bytes)
  else do
    let rest ← readColon e bytes
    let (put, rest) ← field.value.read e rest
    .ok (put s, rest)

/-- The member of an unknown key, after that: nothing but the rest. -/
def skipField (e : Ending) (bytes : Bytes) : Except Fault Bytes := do
  let rest ← readColon e bytes
  skipValue e rest

/-- One member, from its key on: what was read so far, with its value, and the keys of the fields
seen so far, with its own. -/
def readMember (r : Record σ α) (e : Ending) (seen : List String) (s : σ) (bytes : Bytes) :
    Except Fault ((List String × σ) × Bytes) := do
  let (key, rest) ← readText e bytes
  match r.fields.find? (·.key == key) with
  | some field =>
    let (s, rest) ← readField e field seen s rest
    .ok ((key :: seen, s), rest)
  | none =>
    let rest ← skipField e rest
    .ok ((seen, s), rest)

theorem length_of_readMember {r : Record σ α} {e : Ending} {seen : List String} {s : σ}
    {bytes rest : Bytes} {read : List String × σ}
    (h : r.readMember e seen s bytes = .ok (read, rest)) : rest.length < bytes.length := by
  obtain ⟨⟨key, rest₁⟩, h₁, h⟩ := bind_eq_ok.mp h
  have hl := length_of_readText h₁
  dsimp only at h
  split at h
  · obtain ⟨⟨s', rest₂⟩, h₂, h⟩ := bind_eq_ok.mp h
    cases h
    unfold readField at h₂
    split at h₂
    · cases h₂
    · obtain ⟨rest₃, h₃, h₂⟩ := bind_eq_ok.mp h₂
      obtain ⟨⟨put, rest₄⟩, h₄, h₂⟩ := bind_eq_ok.mp h₂
      cases h₂
      exact Nat.lt_trans (Reader.shrinks _ h₄) (Nat.lt_trans (length_of_readColon h₃) hl)
  · obtain ⟨rest₂, h₂, h⟩ := bind_eq_ok.mp h
    cases h
    obtain ⟨rest₃, h₃, h₂⟩ := bind_eq_ok.mp h₂
    exact Nat.lt_of_le_of_lt (length_of_skipFrames h₂) (Nat.lt_trans (length_of_readColon h₃) hl)

/-- The members up to the closing brace, and the rest from there on. -/
def readMembers (r : Record σ α) (e : Ending) (first : Bool) (seen : List String) (s : σ)
    (bytes : Bytes) : Except Fault (σ × Bytes) :=
  match _hk : nextKey e first bytes with
  | .error fault => .error fault
  | .ok (.after, rest) => .ok (s, rest)
  | .ok (.value, rest) =>
    match _hm : r.readMember e seen s rest with
    | .error fault => .error fault
    | .ok ((seen, s), rest) => readMembers r e false seen s rest
termination_by bytes.length
decreasing_by exact Nat.lt_of_lt_of_le (length_of_readMember _hm) (length_of_nextKey _hk)

theorem readMembers_eq (r : Record σ α) (e : Ending) (first : Bool)
    (seen : List String) (s : σ) (bytes : Bytes) :
    r.readMembers e first seen s bytes = nextKey e first bytes >>= fun
      | (.after, rest) => .ok (s, rest)
      | (.value, rest) => r.readMember e seen s rest >>= fun ((seen, s), rest) =>
          r.readMembers e false seen s rest := by
  rw [readMembers]
  split
  · rename_i h
    rw [h]
    rfl
  · rename_i h
    rw [h]
    rfl
  · rename_i h
    rw [h]
    show _ = r.readMember e seen s _ >>= _
    split <;> (rename_i hm; rw [hm]; rfl)

/-- The record as an object, after its opening brace. -/
def readObject (r : Record σ α) (e : Ending) (bytes : Bytes) : Except Fault (α × Bytes) := do
  let (s, rest) ← r.readMembers e true [] r.start bytes
  match r.build s with
  | .ok v => do
    let rest ← closeObject e rest
    .ok (v, rest)
  | .error field => .error (faultAtEnd closeBrace (.missingField field) rest)

/-! ### As a list -/

/-- The fields from the one with this index on, each an element of the list. -/
def readFields (r : Record σ α) (e : Ending) : (index : Nat) → (fields : List (Field σ)) →
    (s : σ) → (bytes : Bytes) → Except Fault (σ × Bytes)
  | _, [], s, bytes => .ok (s, bytes)
  | index, field :: fields, s, bytes => do
    match ← nextElement e (index == 0) bytes with
    | (.after, rest) =>
      .error (faultAtEnd closeBracket (.invalidLength index r.name r.fields.length) rest)
    | (.value, rest) =>
      let (put, rest) ← field.value.read e rest
      readFields r e (index + 1) fields (put s) rest

/-- The record as a list, after its opening bracket. -/
def readList (r : Record σ α) (e : Ending) (bytes : Bytes) : Except Fault (α × Bytes) := do
  let (s, rest) ← r.readFields e 0 r.fields r.start bytes
  match r.build s with
  | .ok v => do
    let rest ← closeList e rest
    .ok (v, rest)
  | .error field => .error (faultAtEnd closeBracket (.missingField field) rest)

/-! ### The bytes left -/

theorem length_of_readMembers {r : Record σ α} {e : Ending} {first : Bool} {seen : List String}
    {s s' : σ} {bytes rest : Bytes}
    (h : r.readMembers e first seen s bytes = .ok (s', rest)) : rest.length ≤ bytes.length := by
  fun_induction readMembers r e first seen s bytes with
  | case1 | case3 => cases h
  | case2 first seen s bytes rest' hk =>
    cases h
    exact length_of_nextKey hk
  | case4 first seen s bytes rest' hk seen' s'' rest'' hm ih =>
    exact Nat.le_trans (ih h)
      (Nat.le_of_lt (Nat.lt_of_lt_of_le (length_of_readMember hm) (length_of_nextKey hk)))

theorem length_of_closeObject {e : Ending} {bytes rest : Bytes}
    (h : closeObject e bytes = .ok rest) : rest.length < bytes.length := by
  unfold closeObject at h
  split at h
  · cases h
  · rename_i hb
    split at h
    · cases h
      exact length_of_skipBlanks hb
    · split at h <;> cases h

theorem length_of_readObject {r : Record σ α} {e : Ending} {bytes rest : Bytes} {v : α}
    (h : r.readObject e bytes = .ok (v, rest)) : rest.length ≤ bytes.length := by
  obtain ⟨⟨s, rest₁⟩, h₁, h⟩ := bind_eq_ok.mp h
  dsimp only at h
  split at h
  · obtain ⟨rest₂, h₂, h⟩ := bind_eq_ok.mp h
    cases h
    exact Nat.le_trans (Nat.le_of_lt (length_of_closeObject h₂)) (length_of_readMembers h₁)
  · cases h

theorem length_of_readFields {r : Record σ α} {e : Ending} {index : Nat}
    {fields : List (Field σ)} {s s' : σ} {bytes rest : Bytes}
    (h : r.readFields e index fields s bytes = .ok (s', rest)) : rest.length ≤ bytes.length := by
  induction fields generalizing index s bytes with
  | nil =>
    cases h
    exact Nat.le_refl _
  | cons field fields ih =>
    obtain ⟨⟨stage, rest₁⟩, h₁, h⟩ := bind_eq_ok.mp h
    have hl₁ := length_of_nextElement h₁
    cases stage with
    | after => cases h
    | value =>
      obtain ⟨⟨put, rest₂⟩, h₂, h⟩ := bind_eq_ok.mp h
      exact Nat.le_trans (ih h) (Nat.le_of_lt (Nat.lt_of_lt_of_le (Reader.shrinks _ h₂) hl₁))

theorem length_of_readList {r : Record σ α} {e : Ending} {bytes rest : Bytes} {v : α}
    (h : r.readList e bytes = .ok (v, rest)) : rest.length ≤ bytes.length := by
  obtain ⟨⟨s, rest₁⟩, h₁, h⟩ := bind_eq_ok.mp h
  dsimp only at h
  split at h
  · obtain ⟨rest₂, h₂, h⟩ := bind_eq_ok.mp h
    cases h
    exact Nat.le_trans (Nat.le_of_lt (length_of_closeList h₂)) (length_of_readFields h₁)
  · cases h

/-! ### From a source -/

end Record

namespace Parser

variable {σ α τ : Type} [Source τ]

/-- An error about the fields read so far.  It is placed behind the list or object, if that ends here. -/
def failAtEnd (closing : UInt8) (cause : Cause) : Parser τ α := do
  let next ← blanksIfAny
  if next == some closing then skip
  fail cause

/-- Takes the quote of the next key, or goes to the closing brace if there is none. -/
def nextKey (first : Bool) : Parser τ Stage :=
  behindBlanks (.ended .object) fun b =>
    if b == closeBrace then
      pure .after
    else if first then
      if b == quote then do
        skip
        pure .value
      else
        failPeeked .keyMustBeString
    else if b == comma then do
      skip
      behindBlanks (.ended .value) fun c =>
        if c == quote then do
          skip
          pure .value
        else if c == closeBrace then
          failPeeked .trailingComma
        else
          failPeeked .keyMustBeString
    else
      failPeeked .expectedObjectCommaOrEnd

/-- Takes the closing brace. -/
def closeObject : Parser τ Unit :=
  behindBlanks (.ended .object) fun b =>
    if b == closeBrace then skip
    else if b == comma then failPeeked .trailingComma
    else failPeeked .trailingCharacters

/-- The member of a known field, after its key. -/
def field (field : Field σ) (seen : List String) (s : σ) : Parser τ σ :=
  if seen.contains field.key then
    failAtEnd closeBrace (.duplicateField field.key)
  else do
    takeColon
    let put ← field.value.parser
    pure (put s)

/-- One member, from its key on. -/
def member (r : Record σ α) (seen : List String) (s : σ) : Parser τ (List String × σ) := do
  let key ← Source.text
  match r.fields.find? (·.key == key) with
  | some known =>
    let s ← field known seen s
    pure (key :: seen, s)
  | none =>
    takeColon
    skipValue
    pure (seen, s)

/-- One more member. -/
def memberTurn (r : Record σ α) : Bool × List String × σ → Parser τ ((Bool × List String × σ) ⊕ σ)
  | (first, seen, s) => do
    match ← nextKey first with
    | .after => pure (.inr s)
    | .value =>
      let (seen, s) ← member r seen s
      pure (.inl (false, seen, s))

/-- The record as an object, after its opening brace. -/
def object (r : Record σ α) : Parser τ α := do
  let s ← loop (memberTurn r) (true, [], r.start)
  match r.build s with
  | .ok v => do
    closeObject
    pure v
  | .error field => failAtEnd closeBrace (.missingField field)

/-- The fields from the one with this index on, each an element of the list. -/
def fields (r : Record σ α) : (index : Nat) → (fields : List (Field σ)) → (s : σ) → Parser τ σ
  | _, [], s => pure s
  | index, field :: rest, s => do
    match ← nextElement (index == 0) with
    | .after => failAtEnd closeBracket (.invalidLength index r.name r.fields.length)
    | .value =>
      let put ← field.value.parser
      fields r (index + 1) rest (put s)

/-- The record as a list, after its opening bracket. -/
def fieldList (r : Record σ α) : Parser τ α := do
  let s ← fields r 0 r.fields r.start
  match r.build s with
  | .ok v => do
    closeList
    pure v
  | .error field => failAtEnd closeBracket (.missingField field)

end Parser

namespace SourceSimulation

variable {σ α τ : Type} [Source τ] {i : Input} (sim : SourceSimulation τ i) {s : τ} {ahead : Bytes}

theorem follows_failAtEnd {γ : Type} {leaf : Except Fault γ → α → τ → Prop} (closing : UInt8) (cause : Cause)
    (h : sim.Sees s ahead) :
    Follows i sim.At leaf (.error (Record.faultAtEnd closing cause ahead))
      (Parser.failAtEnd closing cause s) := by
  obtain ⟨s', hblanks, hat⟩ := sim.blanksIfAny_eq h
  rw [Parser.failAtEnd, Parser.bind_of_ok hblanks, Record.faultAtEnd]
  cases hb : skipBlanks ahead with
  | nil =>
    rw [hb] at hat
    exact sim.follows_fail (sim.atEnd hat) cause
  | cons b rest =>
    rw [hb] at hat
    dsimp only
    show Follows _ _ _ _ ((if b == closing then Parser.skip >>= fun _ => Parser.fail cause
      else Parser.fail cause) s')
    split
    · exact sim.follows_fail (sim.skip hat) cause
    · exact sim.follows_fail_looked hat cause

theorem follows_nextKey (first : Bool) (h : sim.Sees s ahead) :
    Follows i sim.At
      (Given fun stage w s => stage = w.1 ∧ sim.Sees s w.2 ∧ (stage = .value → sim.At s w.2 false))
      (Record.nextKey i.ending first ahead) (Parser.nextKey first s) := by
  refine sim.follows_behindBlanks h fun b rest s _ hat => ?_
  split
  · exact .ok ⟨(.after, b :: rest), rfl, rfl, ⟨true, hat⟩, fun h => nomatch h⟩
  split
  · split
    · exact .ok ⟨(.value, rest), rfl, rfl, ⟨false, sim.skip hat⟩, fun _ => sim.skip hat⟩
    · exact sim.follows_failPeeked hat .keyMustBeString
  split
  · refine sim.follows_behindBlanks ⟨false, sim.skip hat⟩ fun c rest s _ hat => ?_
    split
    · exact .ok ⟨(.value, rest), rfl, rfl, ⟨false, sim.skip hat⟩, fun _ => sim.skip hat⟩
    split
    · exact sim.follows_failPeeked hat .trailingComma
    · exact sim.follows_failPeeked hat .keyMustBeString
  · exact sim.follows_failPeeked hat .expectedObjectCommaOrEnd

theorem follows_closeObject (h : sim.Sees s ahead) :
    Follows i sim.At (Given (sim.Passed false)) (Record.closeObject i.ending ahead)
      (Parser.closeObject s) := by
  refine sim.follows_behindBlanks h fun b rest s _ hat => ?_
  split
  · exact .ok (sim.passed (sim.skip hat))
  split
  · exact sim.follows_failPeeked hat .trailingComma
  · exact sim.follows_failPeeked hat .trailingCharacters

theorem follows_field (field : Field σ) (seen : List String) (v : σ) (h : sim.Sees s ahead) :
    Follows i sim.At (Given sim.Read) (Record.readField i.ending field seen v ahead)
      (Parser.field field seen v s) := by
  rw [Record.readField, Parser.field]
  split
  · exact sim.follows_failAtEnd closeBrace _ h
  · refine (sim.follows_takeColon h).bind fun _ rest s _ hat => ?_
    refine (field.value.follows sim ⟨false, hat⟩).bind fun put w s _ hw => ?_
    obtain ⟨rfl, hsees⟩ := hw
    exact .ok ⟨(w.1 v, w.2), rfl, rfl, hsees⟩

theorem follows_member (r : Record σ α) (seen : List String) (v : σ) (h : sim.At s ahead false) :
    Follows i sim.At (Given sim.Read) (r.readMember i.ending seen v ahead) (Parser.member r seen v s) := by
  refine (sim.text h).bind fun key w s _ hw => ?_
  obtain ⟨key, rest⟩ := w
  obtain ⟨rfl, hat⟩ := hw
  dsimp only
  cases r.fields.find? (·.key == key) with
  | some field =>
    refine (sim.follows_field field seen v ⟨false, hat⟩).bind fun v w s _ hw => ?_
    obtain ⟨rfl, hsees⟩ := hw
    exact .ok ⟨((key :: seen, w.1), w.2), rfl, rfl, hsees⟩
  | none =>
    dsimp only
    rw [Record.skipField, bind_assoc]
    refine (sim.follows_takeColon ⟨false, hat⟩).bind fun _ rest s _ hat => ?_
    refine (sim.follows_skipValue ⟨false, hat⟩).bind fun _ rest s _ hsees => ?_
    exact .ok ⟨((seen, v), rest), rfl, rfl, hsees⟩

theorem follows_memberTurn (r : Record σ α) (walk : Bool × List String × σ) (h : sim.Sees s ahead) :
    Follows i sim.At
      (Turned (fun _ => sim.Sees) (fun walk => r.readMembers i.ending walk.1 walk.2.1 walk.2.2) sim.Read
        ahead)
      (r.readMembers i.ending walk.1 walk.2.1 walk.2.2 ahead) (Parser.memberTurn r walk s) := by
  rw [Record.readMembers_eq]
  refine (sim.follows_nextKey walk.1 h).bind fun stage w s hnext hw => ?_
  obtain ⟨stage, rest⟩ := w
  obtain ⟨rfl, hsees, hat⟩ := hw
  cases stage with
  | after => exact .ok ⟨(walk.2.2, rest), rfl, rfl, hsees⟩
  | value =>
    refine (sim.follows_member r walk.2.1 walk.2.2 (hat rfl)).bind fun v w s hmember hw => ?_
    obtain ⟨rfl, hsees⟩ := hw
    exact .ok ⟨w.2, hsees,
      Nat.lt_of_lt_of_le (Record.length_of_readMember hmember) (Record.length_of_nextKey hnext), rfl⟩

theorem follows_object (r : Record σ α) (h : sim.Sees s ahead) :
    Follows i sim.At (Given sim.Read) (r.readObject i.ending ahead) (Parser.object r s) := by
  have hmembers := sim.follows_loop (b := (true, [], r.start)) (I := fun _ => sim.Sees) (fun _ _ _ h => h)
    (fun walk _ _ h => sim.follows_memberTurn r walk h) h
  refine hmembers.bind fun v w s _ hw => ?_
  obtain ⟨rfl, hsees⟩ := hw
  dsimp only
  cases r.build w.1 with
  | ok v => exact (sim.follows_closeObject hsees).bind fun _ rest s _ hat => .ok (sim.read hat v)
  | error field => exact sim.follows_failAtEnd closeBrace _ hsees

theorem follows_fields (r : Record σ α) (index : Nat) (fields : List (Field σ)) (v : σ)
    (h : sim.Sees s ahead) :
    Follows i sim.At (Given sim.Read) (r.readFields i.ending index fields v ahead)
      (Parser.fields r index fields v s) := by
  induction fields generalizing index v s ahead with
  | nil => exact .ok ⟨(v, ahead), rfl, rfl, h⟩
  | cons field fields ih =>
    refine (sim.follows_nextElement (index == 0) h).bind fun stage w s _ hw => ?_
    obtain ⟨stage, rest⟩ := w
    obtain ⟨rfl, hsees⟩ := hw
    cases stage with
    | after => exact sim.follows_failAtEnd closeBracket _ hsees
    | value =>
      refine (field.value.follows sim hsees).bind fun put w s _ hw => ?_
      obtain ⟨rfl, hsees⟩ := hw
      exact ih (index + 1) (w.1 v) hsees

theorem follows_fieldList (r : Record σ α) (h : sim.Sees s ahead) :
    Follows i sim.At (Given sim.Read) (r.readList i.ending ahead) (Parser.fieldList r s) := by
  refine (sim.follows_fields r 0 r.fields r.start h).bind fun v w s _ hw => ?_
  obtain ⟨rfl, hsees⟩ := hw
  dsimp only
  cases r.build w.1 with
  | ok v => exact (sim.follows_closeList hsees).bind fun _ rest s _ hat => .ok (sim.read hat v)
  | error field => exact sim.follows_failAtEnd closeBracket _ hsees

end SourceSimulation

namespace Record

variable {σ α : Type}

/-- The record in either spelling. -/
def reader (r : Record σ α) : Reader α where
  parser := Parser.value fun b =>
    if b == openBracket then do
      Parser.skip
      Parser.fieldList r
    else if b == openBrace then do
      Parser.skip
      Parser.object r
    else
      Parser.wrongType (.record r.name) b
  read e bytes := readValue e bytes fun b rest =>
    if b == openBracket then r.readList e rest
    else if b == openBrace then r.readObject e rest
    else .error (wrongType e (.record r.name) b rest)
  shrinks := length_of_readValue fun h => by
    split at h
    · exact length_of_readList h
    · split at h
      · exact length_of_readObject h
      · cases h
  follows sim _ _ h := sim.follows_value h fun b rest s hat => by
    split
    · exact sim.follows_fieldList r ⟨false, sim.skip hat⟩
    split
    · exact sim.follows_object r ⟨false, sim.skip hat⟩
    · exact sim.follows_wrongType (.record r.name) hat

end Record

end BuildFleet.Json
