import BuildFleet.Json.Simulation.Sources

/-!
# JSON — readers

A reader takes a value of its type from a source, or finds an error (`Reader.parser`).  What it does on
any source is said by a function of the bytes ahead, which gives the value and the bytes left, or a fault
(`Reader.read`, `Reader.follows`).  It takes at least one byte, so that readers can be repeated until the
bytes are used up (`Reader.shrinks`).

`Reader.parse` reads a whole input: blanks, one value, blanks, and nothing else.
-/

namespace BuildFleet.Json

/-- Takes a value from a source. -/
@[ext]
structure Reader (α : Type) where
  parser {σ : Type} [Source σ] : Parser σ α
  read : Ending → Bytes → Except Fault (α × Bytes)
  shrinks : ∀ {e bytes v rest}, read e bytes = .ok (v, rest) → rest.length < bytes.length
  follows {σ : Type} [Source σ] {i : Input} (sim : SourceSimulation σ i) {s : σ} {ahead : Bytes} :
    sim.Sees s ahead → Follows i sim.At (Given sim.Read) (read i.ending ahead) (parser s)

/-- The reader of the same value, passed through a function. -/
def Reader.map {α β : Type} (f : α → β) (r : Reader α) : Reader β where
  parser := do
    let v ← r.parser
    pure (f v)
  read e bytes := do
    let (v, rest) ← r.read e bytes
    .ok (f v, rest)
  shrinks h := by
    obtain ⟨⟨v, rest⟩, hr, heq⟩ := bind_eq_ok.mp h
    cases heq
    exact r.shrinks hr
  follows sim _ _ h := by
    refine (r.follows sim h).bind fun v w s _ hread => ?_
    obtain ⟨rfl, hsees⟩ := hread
    exact .ok ⟨(f w.1, w.2), rfl, rfl, hsees⟩

/-! ### Whole inputs -/

/-- What a parser gives on a source. -/
def Parser.run {σ α : Type} (p : Parser σ α) (s : σ) : Except Error α :=
  match p s with
  | .ok v _ => .ok v
  | .error error _ => .error error

section
variable {σ α β : Type} {p : Parser σ α} {s s' : σ}

theorem Parser.run_bind_of_ok {v : α} (h : p s = .ok v s') (q : α → Parser σ β) :
    (p >>= q).run s = (q v).run s' := by
  rw [run, bind_of_ok h]
  rfl

theorem Parser.run_bind_of_error {error : Error} (h : p s = .error error s') (q : α → Parser σ β) :
    (p >>= q).run s = .error error := by
  rw [run, bind_of_error h]

end

/-- One value with blanks around it.  A failure to read has a place only inside the value. -/
def Reader.whole {σ α : Type} [Source σ] (r : Reader α) : Parser σ α :=
  Parser.behindBlanks (.ended .value) fun _ => do
    let v ← r.parser.placed
    match ← Parser.blanks with
    | none => pure v
    | some _ => Parser.failPeeked .trailingCharacters

/-- The value that the input holds.  A text in memory does not fail, so bytes that do are a stream. -/
def Reader.parse {α : Type} (r : Reader α) (input : Input) : Except Error α :=
  match input.delivery, input.ending with
  | .text, .closed => r.whole.run (Slice.start input.bytes)
  | _, ending => r.whole.run (Stream.start input.bytes ending)

/-- A failure to read has a place only inside the value. -/
def Ending.faultOutside (e : Ending) (cause : Cause) : Fault :=
  match e with
  | .closed => ⟨cause, .consumed 0⟩
  | .failing error => ⟨.io error, .nowhere⟩

/-- Reads one value with blanks around it. -/
def Reader.readAll {α : Type} (r : Reader α) (e : Ending) (bytes : Bytes) : Except Fault α :=
  match skipBlanks bytes with
  | [] => .error (e.faultOutside (.ended .value))
  | b :: rest => do
    let (v, rest) ← r.read e (b :: rest)
    match e, skipBlanks rest with
    | .closed, [] => .ok v
    | .failing error, [] => .error ⟨.io error, .nowhere⟩
    | _, rest@(_ :: _) => .error ⟨.trailingCharacters, .peeked rest.length⟩

/-- The value, or the error of a fault. -/
def Input.answer {α : Type} (i : Input) : Except Fault α → Except Error α
  | .ok v => .ok v
  | .error fault => .error ⟨fault.cause, i.place? fault.mark⟩

theorem Input.answer_eq_ok_iff {α : Type} {i : Input} {x : Except Fault α} {v : α} :
    i.answer x = .ok v ↔ x = .ok v := by
  cases x with
  | error => exact ⟨fun h => (nomatch h), fun h => (nomatch h)⟩
  | ok => exact ⟨fun h => congrArg _ (Except.ok.inj h), fun h => congrArg _ (Except.ok.inj h)⟩

theorem Input.answer_eq_error_iff {α : Type} {i : Input} {x : Except Fault α} {error : Error} :
    i.answer x = .error error ↔ ∃ fault, x = .error fault ∧ error = ⟨fault.cause, i.place? fault.mark⟩ := by
  cases x with
  | ok => exact ⟨fun h => (nomatch h), fun ⟨_, h, _⟩ => (nomatch h)⟩
  | error fault =>
    refine ⟨fun h => ⟨fault, rfl, (Except.error.inj h).symm⟩, ?_⟩
    rintro ⟨fault', hfault, rfl⟩
    obtain rfl := Except.error.inj hfault
    rfl

/-- The bytes as they are read: a text in memory does not fail. -/
def Input.delivered (i : Input) : Input :=
  match i.delivery, i.ending with
  | .text, .closed => i
  | _, ending => ⟨i.bytes, .stream, ending⟩

/-- Behind blanks there is a byte, or the bytes end for good, or the stream fails. -/
theorem Simulation.run_blanks {σ α : Type} [Cursor σ] {i : Input} (sim : Simulation σ i) {s : σ}
    {ahead : Bytes} (h : sim.Sees s ahead) (q : Option UInt8 → Parser σ α) :
    (∃ b rest s', skipBlanks ahead = b :: rest ∧ sim.At s' (b :: rest) true ∧
        (Parser.blanks >>= q).run s = (q (some b)).run s') ∨
      (∃ s', skipBlanks ahead = [] ∧ i.ending = .closed ∧ sim.At s' [] true ∧
        (Parser.blanks >>= q).run s = (q none).run s') ∨
      ∃ error, skipBlanks ahead = [] ∧ i.ending = .failing error ∧
        (Parser.blanks >>= q).run s = .error ⟨.io error, none⟩ := by
  have hblanks := sim.reaches_blanks h
  cases hb : skipBlanks ahead with
  | cons b rest =>
    rw [hb] at hblanks
    obtain ⟨s', hs, hat⟩ := hblanks.get (List.cons_ne_nil b rest)
    exact .inl ⟨b, rest, s', rfl, hat, Parser.run_bind_of_ok hs q⟩
  | nil =>
    rw [hb] at hblanks
    generalize hr : Parser.blanks s = r at hblanks
    cases hblanks with
    | ok hclosed hat => exact .inr (.inl ⟨_, rfl, hclosed rfl, hat, Parser.run_bind_of_ok hr q⟩)
    | failed _ herror hat => exact .inr (.inr ⟨_, rfl, herror, Parser.run_bind_of_error hr q⟩)

theorem Simulation.run_failPeeked {σ α : Type} [Cursor σ] {i : Input} (sim : Simulation σ i) {s : σ}
    {ahead : Bytes} (h : sim.At s ahead true) (cause : Cause) :
    (Parser.failPeeked cause : Parser σ α).run s = .error ⟨cause, i.place? (.peeked ahead.length)⟩ := by
  rw [sim.peekPlace h]
  rfl

/-- A whole input is read as its bytes say. -/
theorem Reader.run_whole {σ α : Type} [Source σ] (r : Reader α) {i : Input} (sim : SourceSimulation σ i)
    {s : σ} {ahead : Bytes} (h : sim.Sees s ahead) :
    r.whole.run s = i.answer (r.readAll i.ending ahead) := by
  rw [whole, Parser.behindBlanks, readAll]
  rcases sim.run_blanks h _ with
    ⟨b, rest, s', hb, hat, hrun⟩ | ⟨s', hb, hclosed, hat, hrun⟩ | ⟨error, hb, herror, hrun⟩
  · rw [hrun, hb]
    dsimp only
    rcases sim.placed_cases (r.follows sim ⟨true, hat⟩) with
      ⟨v, s'', hp, w, hw, rfl, hsees⟩ | ⟨fault, place, s'', hx, hplace, hp⟩
    · rw [Parser.run_bind_of_ok hp, hw]
      show _ = i.answer (match i.ending, skipBlanks w.2 with
        | .closed, [] => .ok w.1
        | .failing error, [] => .error ⟨.io error, .nowhere⟩
        | _, rest@(_ :: _) => .error ⟨.trailingCharacters, .peeked rest.length⟩)
      rcases sim.run_blanks hsees _ with
        ⟨b, rest, s', hb, hat, hrun⟩ | ⟨s', hb, hclosed, hat, hrun⟩ | ⟨error, hb, herror, hrun⟩
      · rw [hrun, hb]
        dsimp only
        rw [sim.run_failPeeked hat]
        cases i.ending <;> rfl
      · rw [hrun, hb, hclosed]
        rfl
      · rw [hrun, hb, herror]
        rfl
    · rw [Parser.run_bind_of_error hp, hx, ← hplace]
      rfl
  · rw [hrun, hb, hclosed]
    dsimp only
    rw [sim.run_failPeeked hat]
    rfl
  · rw [hrun, hb, herror]
    rfl

/-- An input is read as its bytes say. -/
theorem Reader.parse_eq {α : Type} (r : Reader α) (input : Input) :
    r.parse input = input.delivered.answer (r.readAll input.ending input.bytes) := by
  obtain ⟨bytes, delivery, ending⟩ := input
  have hstream : r.whole.run (Stream.start bytes ending) =
      (⟨bytes, .stream, ending⟩ : Input).answer (r.readAll ending bytes) :=
    r.run_whole (Stream.sourceSimulation bytes ending) ⟨false, .start bytes ending⟩
  have hslice : r.whole.run (Slice.start bytes) =
      (⟨bytes, .text, .closed⟩ : Input).answer (r.readAll .closed bytes) :=
    r.run_whole (Slice.sourceSimulation bytes) ⟨false, .start bytes⟩
  cases delivery with
  | stream => exact hstream
  | text =>
    cases ending with
    | closed => exact hslice
    | failing error => exact hstream

theorem Reader.parse_eq_ok_iff {α : Type} {r : Reader α} {input : Input} {v : α} :
    r.parse input = .ok v ↔ r.readAll input.ending input.bytes = .ok v := by
  rw [parse_eq, Input.answer_eq_ok_iff]

theorem Reader.parse_of_error {α : Type} {r : Reader α} {input : Input} {fault : Fault}
    (h : r.readAll input.ending input.bytes = .error fault) :
    r.parse input = .error ⟨fault.cause, input.delivered.place? fault.mark⟩ := by
  rw [parse_eq, h]
  rfl

end BuildFleet.Json
