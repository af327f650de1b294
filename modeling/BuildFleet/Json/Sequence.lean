import BuildFleet.Json.Scalar

/-!
# JSON — lists

A list of values of one type.  A parser takes its elements in turns (`follows_elementTurn`); the bytes
ahead are read by a recursion on them.
-/

namespace BuildFleet.Json

/-- Where the next element of a list begins, or the rest from its closing bracket on if there is
none.  Between two elements stands a comma, and after a comma an element. -/
def nextElement (e : Ending) (first : Bool) (bytes : Bytes) : Except Fault (Stage × Bytes) :=
  match skipBlanks bytes with
  | [] => .error (e.fault (.ended .list))
  | b :: rest =>
    if b == closeBracket then
      .ok (.after, b :: rest)
    else if first then
      .ok (.value, b :: rest)
    else if b == comma then
      match skipBlanks rest with
      | [] => .error (e.fault (.ended .value))
      | c :: rest =>
        if c == closeBracket then .error ⟨.trailingComma, .peeked (rest.length + 1)⟩
        else .ok (.value, c :: rest)
    else
      .error ⟨.expectedListCommaOrEnd, .peeked (rest.length + 1)⟩

theorem length_of_nextElement {e : Ending} {first : Bool} {bytes rest : Bytes} {stage : Stage}
    (h : nextElement e first bytes = .ok (stage, rest)) : rest.length ≤ bytes.length := by
  unfold nextElement at h
  split at h
  · cases h
  · rename_i hb
    have hl := length_of_skipBlanks hb
    split at h
    · cases h
      exact hl
    · split at h
      · cases h
        exact hl
      · split at h
        · split at h
          · cases h
          · rename_i hc
            have hl' := length_of_skipBlanks hc
            split at h
            · cases h
            · cases h
              exact Nat.le_trans hl' (Nat.le_of_lt hl)
        · cases h

/-- The elements up to the closing bracket, after those of `done`, which are in reverse; and the
rest from the bracket on. -/
def readElements {α : Type} (r : Reader α) (e : Ending) (first : Bool) (done : List α)
    (bytes : Bytes) : Except Fault (List α × Bytes) :=
  match _hn : nextElement e first bytes with
  | .error fault => .error fault
  | .ok (.after, rest) => .ok (done.reverse, rest)
  | .ok (.value, rest) =>
    match _hr : r.read e rest with
    | .error fault => .error fault
    | .ok (v, rest) => readElements r e false (v :: done) rest
termination_by bytes.length
decreasing_by exact Nat.lt_of_lt_of_le (r.shrinks _hr) (length_of_nextElement _hn)

theorem readElements_eq {α : Type} (r : Reader α) (e : Ending) (first : Bool) (done : List α)
    (bytes : Bytes) :
    readElements r e first done bytes = nextElement e first bytes >>= fun
      | (.after, rest) => .ok (done.reverse, rest)
      | (.value, rest) => r.read e rest >>= fun (v, rest) => readElements r e false (v :: done) rest := by
  rw [readElements]
  split
  · rename_i h
    rw [h]
    rfl
  · rename_i h
    rw [h]
    rfl
  · rename_i h
    rw [h]
    show _ = r.read e _ >>= _
    split <;> (rename_i hr; rw [hr]; rfl)

theorem length_of_readElements {α : Type} {r : Reader α} {e : Ending} {first : Bool}
    {done vs : List α} {bytes rest : Bytes}
    (h : readElements r e first done bytes = .ok (vs, rest)) : rest.length ≤ bytes.length := by
  fun_induction readElements r e first done bytes with
  | case1 | case3 => cases h
  | case2 first done bytes rest' hn =>
    cases h
    exact length_of_nextElement hn
  | case4 first done bytes rest' hn v rest'' hr ih =>
    exact Nat.le_trans (ih h)
      (Nat.le_of_lt (Nat.lt_of_lt_of_le (r.shrinks hr) (length_of_nextElement hn)))

/-- The rest after the closing bracket of a list of which all wanted elements have been read. -/
def closeList (e : Ending) (bytes : Bytes) : Except Fault Bytes :=
  match skipBlanks bytes with
  | [] => .error (e.fault (.ended .list))
  | b :: rest =>
    if b == closeBracket then
      .ok rest
    else if b == comma then
      match skipBlanks rest with
      | [] => .error ⟨.trailingCharacters, .peeked 0⟩
      | c :: rest =>
        if c == closeBracket then .error ⟨.trailingComma, .peeked (rest.length + 1)⟩
        else .error ⟨.trailingCharacters, .peeked (rest.length + 1)⟩
    else
      .error ⟨.trailingCharacters, .peeked (rest.length + 1)⟩

theorem length_of_closeList {e : Ending} {bytes rest : Bytes}
    (h : closeList e bytes = .ok rest) : rest.length < bytes.length := by
  unfold closeList at h
  split at h
  · cases h
  · rename_i hb
    split at h
    · cases h
      exact length_of_skipBlanks hb
    · split at h
      · split at h
        · cases h
        · split at h <;> cases h
      · cases h

/-! ### From a source -/

namespace Parser

variable {σ α : Type} [Source σ]

/-- Goes to where the next element of a list begins, or to its closing bracket if there is none. -/
def nextElement (first : Bool) : Parser σ Stage :=
  behindBlanks (.ended .list) fun b =>
    if b == closeBracket then
      pure .after
    else if first then
      pure .value
    else if b == comma then do
      skip
      behindBlanks (.ended .value) fun c =>
        if c == closeBracket then failPeeked .trailingComma else pure .value
    else
      failPeeked .expectedListCommaOrEnd

/-- One more element, in front of those of `done`, which are in reverse. -/
def elementTurn (element : Parser σ α) : Bool × List α → Parser σ ((Bool × List α) ⊕ List α)
  | (first, done) => do
    match ← nextElement first with
    | .after => pure (.inr done.reverse)
    | .value =>
      let v ← element
      pure (.inl (false, v :: done))

/-- Takes the closing bracket of a list of which all wanted elements have been read. -/
def closeList : Parser σ Unit :=
  behindBlanks (.ended .list) fun b =>
    if b == closeBracket then
      skip
    else if b == comma then do
      skip
      let next ← blanksIfAny
      if next == some closeBracket then failPeeked .trailingComma else failPeeked .trailingCharacters
    else
      failPeeked .trailingCharacters

end Parser

namespace SourceSimulation

variable {σ α : Type} [Source σ] {i : Input} (sim : SourceSimulation σ i) {s : σ} {ahead : Bytes}

theorem follows_nextElement (first : Bool) (h : sim.Sees s ahead) :
    Follows i sim.At (Given sim.Read) (nextElement i.ending first ahead) (Parser.nextElement first s) := by
  refine sim.follows_behindBlanks h fun b rest s _ hat => ?_
  split
  · exact .ok (sim.read hat Stage.after)
  split
  · exact .ok (sim.read hat Stage.value)
  split
  · refine sim.follows_behindBlanks ⟨false, sim.skip hat⟩ fun c rest s _ hat => ?_
    split
    · exact sim.follows_failPeeked hat .trailingComma
    · exact .ok (sim.read hat Stage.value)
  · exact sim.follows_failPeeked hat .expectedListCommaOrEnd

theorem follows_elementTurn (r : Reader α) (walk : Bool × List α) (h : sim.Sees s ahead) :
    Follows i sim.At
      (Turned (fun _ => sim.Sees) (fun walk => readElements r i.ending walk.1 walk.2) sim.Read ahead)
      (readElements r i.ending walk.1 walk.2 ahead) (Parser.elementTurn r.parser walk s) := by
  rw [readElements_eq]
  refine (sim.follows_nextElement walk.1 h).bind fun stage w s hnext hw => ?_
  obtain ⟨stage, rest⟩ := w
  obtain ⟨rfl, hsees⟩ := hw
  cases stage with
  | after => exact .ok ⟨(walk.2.reverse, rest), rfl, rfl, hsees⟩
  | value =>
    refine (r.follows sim hsees).bind fun v w s hr hw => ?_
    obtain ⟨rfl, hsees⟩ := hw
    exact .ok ⟨w.2, hsees, Nat.lt_of_lt_of_le (r.shrinks hr) (length_of_nextElement hnext), rfl⟩

theorem follows_closeList (h : sim.Sees s ahead) :
    Follows i sim.At (Given (sim.Passed false)) (closeList i.ending ahead) (Parser.closeList s) := by
  refine sim.follows_behindBlanks h fun b rest s _ hat => ?_
  split
  · exact .ok (sim.passed (sim.skip hat))
  split
  · obtain ⟨s', hblanks, hat⟩ := sim.blanksIfAny_eq ⟨false, sim.skip hat⟩
    show Follows _ _ _ _ ((Parser.blanksIfAny >>= _) (Cursor.skip s))
    rw [Parser.bind_of_ok hblanks]
    cases hb : skipBlanks rest with
    | nil =>
      rw [hb] at hat
      exact sim.follows_failPeeked hat .trailingCharacters
    | cons c rest =>
      rw [hb] at hat
      dsimp only
      show Follows _ _ _ _ ((if c == closeBracket then Parser.failPeeked .trailingComma
        else Parser.failPeeked .trailingCharacters) s')
      split <;> exact sim.follows_failPeeked hat _
  · exact sim.follows_failPeeked hat .trailingCharacters

end SourceSimulation

/-- A list of values that the given reader reads. -/
def Reader.list {α : Type} (r : Reader α) : Reader (List α) where
  parser := Parser.value fun b =>
    if b == openBracket then do
      Parser.skip
      let vs ← Parser.loop (Parser.elementTurn r.parser) (true, [])
      Parser.closeList
      pure vs
    else
      Parser.wrongType .sequence b
  read e bytes := readValue e bytes fun b rest =>
    if b == openBracket then do
      let (vs, rest) ← readElements r e true [] rest
      let rest ← closeList e rest
      .ok (vs, rest)
    else
      .error (wrongType e .sequence b rest)
  shrinks := length_of_readValue fun h => by
    split at h
    · obtain ⟨⟨vs, rest₁⟩, h₁, h₂⟩ := bind_eq_ok.mp h
      obtain ⟨rest₂, h₂, h₃⟩ := bind_eq_ok.mp h₂
      cases h₃
      exact Nat.le_trans (Nat.le_of_lt (length_of_closeList h₂)) (length_of_readElements h₁)
    · cases h
  follows sim _ _ h := sim.follows_value h fun b rest s hat => by
    split
    · have helements := sim.follows_loop (b := (true, [])) (I := fun _ => sim.Sees) (fun _ _ _ h => h)
        (fun walk _ _ h => sim.follows_elementTurn r walk h) ⟨false, sim.skip hat⟩
      refine helements.bind fun vs w s _ hw => ?_
      obtain ⟨rfl, hsees⟩ := hw
      exact (sim.follows_closeList hsees).bind fun _ rest s _ hat => .ok (sim.read hat w.1)
    · exact sim.follows_wrongType .sequence hat

end BuildFleet.Json
