import BuildFleet.Json.Reader
import BuildFleet.Json.Simulation.Skipping

/-!
# JSON — strings, booleans and optional values

The readers of values without parts.  Where a value of another type stands, it is read far enough to
name it in the message: a scalar as a whole, of a list or an object nothing.

Each comes twice, as a function of the bytes ahead and as a parser that works on a source, with the lemma
that the one says what the other does (`follows_found`, `SourceSimulation.follows_value`).
-/

namespace BuildFleet.Json

/-- What stands here instead of the value wanted, and the mark of a fault that says so. -/
def readFound (e : Ending) (b : UInt8) (rest : Bytes) : Except Fault (Found × Mark) :=
  if b == letterN then do
    let rest ← readLetters e restOfNull rest
    .ok (.null, .consumed rest.length)
  else if b == letterT then do
    let rest ← readLetters e restOfTrue rest
    .ok (.boolean true, .consumed rest.length)
  else if b == letterF then do
    let rest ← readLetters e restOfFalse rest
    .ok (.boolean false, .consumed rest.length)
  else if b == minusSign then do
    let (found, rest) ← readNumber e true rest
    .ok (found, .looked rest.length)
  else if isDigit b then do
    let (found, rest) ← readNumber e false (b :: rest)
    .ok (found, .looked rest.length)
  else if b == quote then do
    let (s, rest) ← readText e rest
    .ok (.string s, .consumed rest.length)
  else if b == openBracket then
    .ok (.sequence, .looked (rest.length + 1))
  else if b == openBrace then
    .ok (.map, .looked (rest.length + 1))
  else
    .error ⟨.expectedValue, .peeked (rest.length + 1)⟩

/-- The fault of a value that begins with `b` and is not of the type wanted. -/
def wrongType (e : Ending) (wanted : Wanted) (b : UInt8) (rest : Bytes) : Fault :=
  match readFound e b rest with
  | .ok (found, mark) => ⟨.invalidType found wanted, mark⟩
  | .error fault => fault

namespace Parser

variable {σ α : Type} [Source σ]

/-- What stands here instead of the value wanted, which begins with `b`. -/
def found (b : UInt8) : Parser σ Found :=
  if b == letterN then do
    skip
    letters restOfNull
    pure .null
  else if b == letterT then do
    skip
    letters restOfTrue
    pure (.boolean true)
  else if b == letterF then do
    skip
    letters restOfFalse
    pure (.boolean false)
  else if b == minusSign then do
    skip
    number true
  else if isDigit b then
    number false
  else if b == quote then do
    skip
    let s ← Source.text
    pure (.string s)
  else if b == openBracket then
    pure .sequence
  else if b == openBrace then
    pure .map
  else
    failPeeked .expectedValue

/-- A value that begins with `b` is not of the type wanted. -/
def wrongType (wanted : Wanted) (b : UInt8) : Parser σ α := do
  let found ← found b
  fail (.invalidType found wanted)

end Parser

namespace SourceSimulation

variable {σ : Type} [Source σ] {i : Input} (sim : SourceSimulation σ i) {s : σ} {b : UInt8} {rest : Bytes}

/-- What stands here, and the mark of a fault at the place reached. -/
def Finds (i : Input) (found : Found) (w : Found × Mark) (s : σ) : Prop :=
  found = w.1 ∧ i.place? w.2 = some (Cursor.place s)

theorem follows_found (h : sim.At s (b :: rest) true) :
    Follows i sim.At (Given (Finds i)) (readFound i.ending b rest) (Parser.found b s) := by
  have hskip := sim.skip h
  rw [readFound, Parser.found]
  split
  · exact (sim.follows_letters restOfNull hskip).bind fun _ rest s _ hat =>
      .ok ⟨(.null, _), rfl, rfl, sim.place hat⟩
  split
  · exact (sim.follows_letters restOfTrue hskip).bind fun _ rest s _ hat =>
      .ok ⟨(.boolean true, _), rfl, rfl, sim.place hat⟩
  split
  · exact (sim.follows_letters restOfFalse hskip).bind fun _ rest s _ hat =>
      .ok ⟨(.boolean false, _), rfl, rfl, sim.place hat⟩
  split
  · exact (sim.follows_number true hskip).said fun _ w s hw =>
      ⟨(w.1, _), rfl, hw.1, sim.placeLooked hw.2⟩
  split
  · exact (sim.follows_number false h).said fun _ w s hw =>
      ⟨(w.1, _), rfl, hw.1, sim.placeLooked hw.2⟩
  split
  · exact (sim.text hskip).bind fun _ w s _ hw =>
      .ok ⟨(.string w.1, _), rfl, congrArg Found.string hw.1, sim.place hw.2⟩
  split
  · exact .ok ⟨(.sequence, _), rfl, rfl, sim.placeLooked h⟩
  split
  · exact .ok ⟨(.map, _), rfl, rfl, sim.placeLooked h⟩
  · exact sim.follows_failPeeked h .expectedValue

theorem follows_wrongType {α γ : Type} {leaf : Except Fault γ → α → σ → Prop} (wanted : Wanted)
    (h : sim.At s (b :: rest) true) :
    Follows i sim.At leaf (.error (wrongType i.ending wanted b rest)) (Parser.wrongType wanted b s) := by
  have hwrong : (.error (wrongType i.ending wanted b rest) : Except Fault γ) =
      readFound i.ending b rest >>= fun w => .error ⟨.invalidType w.1 wanted, w.2⟩ := by
    rw [wrongType]
    cases readFound i.ending b rest <;> rfl
  rw [hwrong]
  refine (sim.follows_found h).bind fun found w s _ hw => ?_
  obtain ⟨rfl, hplace⟩ := hw
  exact .placed hplace

end SourceSimulation

/-- Takes a value after the blanks in front of it, by its first byte. -/
def Parser.value {σ α : Type} [Source σ] (p : UInt8 → Parser σ α) : Parser σ α :=
  behindBlanks (.ended .value) fun b => placed (p b)

/-- Reads a value after the blanks in front of it, by its first byte. -/
def readValue {α : Type} (e : Ending) (bytes : Bytes)
    (read : UInt8 → Bytes → Except Fault (α × Bytes)) : Except Fault (α × Bytes) :=
  match skipBlanks bytes with
  | [] => .error (e.fault (.ended .value))
  | b :: rest => read b rest

theorem length_of_readValue {α : Type} {e : Ending} {bytes rest : Bytes} {v : α}
    {read : UInt8 → Bytes → Except Fault (α × Bytes)}
    (hread : ∀ {b : UInt8} {tail : Bytes}, read b tail = .ok (v, rest) →
      rest.length ≤ tail.length)
    (h : readValue e bytes read = .ok (v, rest)) : rest.length < bytes.length := by
  unfold readValue at h
  split at h
  · cases h
  · rename_i hb
    exact Nat.lt_of_le_of_lt (hread h) (length_of_skipBlanks hb)

theorem SourceSimulation.follows_value {σ α : Type} [Source σ] {i : Input} (sim : SourceSimulation σ i)
    {s : σ} {ahead : Bytes} (h : sim.Sees s ahead) {read : UInt8 → Bytes → Except Fault (α × Bytes)}
    {p : UInt8 → Parser σ α}
    (hp : ∀ b rest s, sim.At s (b :: rest) true →
      Follows i sim.At (Given sim.Read) (read b rest) (p b s)) :
    Follows i sim.At (Given sim.Read) (readValue i.ending ahead read) (Parser.value p s) :=
  sim.follows_behindBlanks h fun b rest s _ hat => sim.follows_placed (hp b rest s hat)

namespace Reader

/-- A string. -/
def string : Reader String where
  parser := Parser.value fun b =>
    if b == quote then do
      Parser.skip
      Source.text
    else
      Parser.wrongType .string b
  read e bytes := readValue e bytes fun b rest =>
    if b == quote then readText e rest else .error (wrongType e .string b rest)
  shrinks := length_of_readValue fun h => by
    split at h
    · exact Nat.le_of_lt (length_of_readText h)
    · cases h
  follows sim _ _ h := sim.follows_value h fun b rest s hat => by
    split
    · exact sim.follows_read (sim.text (sim.skip hat))
    · exact sim.follows_wrongType .string hat

/-- A truth value. -/
def boolean : Reader Bool where
  parser := Parser.value fun b =>
    if b == letterT then do
      Parser.skip
      Parser.letters restOfTrue
      pure true
    else if b == letterF then do
      Parser.skip
      Parser.letters restOfFalse
      pure false
    else
      Parser.wrongType .boolean b
  read e bytes := readValue e bytes fun b rest =>
    if b == letterT then do
      let rest ← readLetters e restOfTrue rest
      .ok (true, rest)
    else if b == letterF then do
      let rest ← readLetters e restOfFalse rest
      .ok (false, rest)
    else
      .error (wrongType e .boolean b rest)
  shrinks := length_of_readValue fun h => by
    split at h
    · obtain ⟨rest₁, h₁, h₂⟩ := bind_eq_ok.mp h
      cases h₂
      exact length_of_readLetters h₁
    · split at h
      · obtain ⟨rest₁, h₁, h₂⟩ := bind_eq_ok.mp h
        cases h₂
        exact length_of_readLetters h₁
      · cases h
  follows sim _ _ h := sim.follows_value h fun b rest s hat => by
    split
    · exact (sim.follows_letters restOfTrue (sim.skip hat)).bind fun _ rest s _ hat =>
        .ok (sim.read hat true)
    · split
      · exact (sim.follows_letters restOfFalse (sim.skip hat)).bind fun _ rest s _ hat =>
          .ok (sim.read hat false)
      · exact sim.follows_wrongType .boolean hat

/-- A value, or `null` for none. -/
def optional {α : Type} (r : Reader α) : Reader (Option α) where
  parser := Parser.behindBlanks (.ended .value) fun b =>
    if b == letterN then do
      Parser.skip
      Parser.letters restOfNull
      pure none
    else do
      let v ← r.parser
      pure (some v)
  read e bytes :=
    match skipBlanks bytes with
    | [] => .error (e.fault (.ended .value))
    | b :: rest =>
      if b == letterN then do
        let rest ← readLetters e restOfNull rest
        .ok (none, rest)
      else do
        let (v, rest) ← r.read e (b :: rest)
        .ok (some v, rest)
  shrinks h := by
    split at h
    · cases h
    · rename_i hb
      have hl := length_of_skipBlanks hb
      split at h
      · obtain ⟨rest₁, h₁, h₂⟩ := bind_eq_ok.mp h
        cases h₂
        exact Nat.lt_of_le_of_lt (length_of_readLetters h₁) hl
      · obtain ⟨⟨v, rest₁⟩, h₁, h₂⟩ := bind_eq_ok.mp h
        cases h₂
        exact Nat.lt_of_lt_of_le (r.shrinks h₁) hl
  follows sim _ _ h := sim.follows_behindBlanks h fun b rest s _ hat => by
    split
    · exact (sim.follows_letters restOfNull (sim.skip hat)).bind fun _ rest s _ hat =>
        .ok (sim.read hat none)
    · exact (r.follows sim ⟨true, hat⟩).bind fun v w s _ hw =>
        .ok ⟨(some w.1, w.2), rfl, congrArg some hw.1, hw.2⟩

end Reader

end BuildFleet.Json
