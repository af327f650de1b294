import BuildFleet.Json.Source

/-!
# JSON — parsers and the bytes ahead

What a parser does on a cursor is said by a function of the bytes ahead, which gives a value and the bytes
left, or a fault with a mark.

* `Simulation`: a relation between the states of a cursor over some input and the bytes ahead, kept by
  whatever the cursor does.  A state also tells whether the next byte has been looked at.
* `Follows`: the parser gives what the function says.  An error has the place of the mark; or it has none,
  and then it is a failure to read and the bytes are used up.
* `Follows.bind`, `Simulation.follows_loop`: how this is put together from steps, and from the turns of a
  loop.
-/

namespace BuildFleet.Json

/-- The place of a mark in an input. -/
def Input.place? (i : Input) (mark : Mark) : Option Place :=
  mark.place? i.bytes i.delivery

variable {σ α β γ δ : Type}

/-- A parser gives what is said of it.  `At` relates a state, the bytes ahead of it, and whether the first of
them has been looked at; `leaf` relates what is said, the value given and the state after that. -/
inductive Follows (i : Input) (At : σ → Bytes → Bool → Prop) (leaf : Except Fault γ → α → σ → Prop) :
    Except Fault γ → EStateM.Result Error σ α → Prop where
  | ok {x : Except Fault γ} {v : α} {s : σ} : leaf x v s → Follows i At leaf x (.ok v s)
  | placed {cause : Cause} {mark : Mark} {place : Place} {s : σ} : i.place? mark = some place →
      Follows i At leaf (.error ⟨cause, mark⟩) (.error ⟨cause, some place⟩ s)
  | failed {error : SystemError} {s : σ} : i.ending = .failing error → At s [] false →
      Follows i At leaf (.error ⟨.io error, .consumed 0⟩) (.error ⟨.io error, none⟩ s)

/-- What is said is a value, and this holds of it, the value given and the state. -/
def Given (post : α → γ → σ → Prop) (x : Except Fault γ) (v : α) (s : σ) : Prop :=
  ∃ w, x = .ok w ∧ post v w s

/-- A parser gets to the bytes `rest` with this value, having looked at the first of them.  If there is none,
it goes on only where the bytes end for good. -/
inductive Reaches (i : Input) (At : σ → Bytes → Bool → Prop) (v : α) (rest : Bytes) :
    EStateM.Result Error σ α → Prop where
  | ok {s : σ} : (rest = [] → i.ending = .closed) → At s rest true → Reaches i At v rest (.ok v s)
  | failed {error : SystemError} {s : σ} : rest = [] → i.ending = .failing error → At s [] false →
      Reaches i At v rest (.error ⟨.io error, none⟩ s)

/-- What a turn of a loop comes to: the loop goes on, with fewer bytes ahead, and what is said of it is what
is said of the loop from there on; or it gives a value. -/
def Turned (I : β → σ → Bytes → Prop) (F : β → Bytes → Except Fault γ) (post : α → γ → σ → Prop)
    (ahead : Bytes) (x : Except Fault γ) : β ⊕ α → σ → Prop
  | .inl b, s => ∃ rest, I b s rest ∧ rest.length < ahead.length ∧ x = F b rest
  | .inr v, s => Given post x v s

/-- What relates the states of a cursor over an input to the bytes ahead. -/
structure Simulation (σ : Type) [Cursor σ] (i : Input) where
  /-- These bytes are ahead, and the first of them has been looked at or not. -/
  At : σ → Bytes → Bool → Prop
  /-- At the end there is no byte to look at. -/
  atEnd {s : σ} {looked looked' : Bool} : At s [] looked → At s [] looked'
  place {s : σ} {ahead : Bytes} : At s ahead false →
    i.place? (.consumed ahead.length) = some (Cursor.place s)
  placeLooked {s : σ} {ahead : Bytes} : At s ahead true →
    i.place? (.looked ahead.length) = some (Cursor.place s)
  peekPlace {s : σ} {ahead : Bytes} : At s ahead true →
    i.place? (.peeked ahead.length) = some (Cursor.peekPlace s)
  peek {s : σ} {ahead : Bytes} {looked : Bool} : At s ahead looked →
    Reaches i At ahead.head? ahead (Cursor.peek s)
  next {s : σ} {b : UInt8} {rest : Bytes} {looked : Bool} : At s (b :: rest) looked →
    ∃ s', Cursor.next s = .ok (some b) s' ∧ At s' rest false
  nextAtEnd {s : σ} {looked : Bool} : At s [] looked → Reaches i At none [] (Cursor.next s)
  skip {s : σ} {b : UInt8} {rest : Bytes} : At s (b :: rest) true → At (Cursor.skip s) rest false
  codeUnit {s : σ} {ahead : Bytes} : At s ahead false →
    Follows i At (Given fun unit w s => unit = w.1 ∧ At s w.2 false) (readCodeUnit i.ending ahead)
      (Cursor.codeUnit s)
  left {s : σ} {ahead : Bytes} {looked : Bool} : At s ahead looked → ahead.length ≤ Cursor.left s

namespace Parser

/-- The steps of a parser that is a chain, if the first of them succeeds. -/
theorem bind_of_ok {p : Parser σ α} {q : α → Parser σ β} {s s' : σ} {v : α}
    (h : p s = .ok v s') : (p >>= q) s = q v s' := by
  show EStateM.bind p q s = _
  rw [EStateM.bind, h]

theorem bind_of_error {p : Parser σ α} {q : α → Parser σ β} {s s' : σ} {error : Error}
    (h : p s = .error error s') : (p >>= q) s = .error error s' := by
  show EStateM.bind p q s = _
  rw [EStateM.bind, h]

end Parser

/-! ### Ends of streams -/

/-- Where the bytes are used up and the stream fails, its failure is found. -/
def Fails (i : Input) (x : Except Fault γ) : Prop :=
  ∀ error, i.ending = .failing error → x = .error ⟨.io error, .consumed 0⟩

namespace Fails

variable {i : Input}

theorem fault (cause : Cause) : Fails i (.error (i.ending.fault cause) : Except Fault γ) := by
  intro error h
  rw [h]
  rfl

theorem look : Fails i (i.ending.look []) := by
  intro error h
  rw [h]
  rfl

theorem bind {x : Except Fault γ} (h : Fails i x) (f : γ → Except Fault δ) : Fails i (x >>= f) := by
  intro error herror
  rw [h error herror]
  rfl

end Fails

namespace Follows

variable {i : Input} {At : σ → Bytes → Bool → Prop}

/-- A step, and then what goes on from the value it gives. -/
theorem bind {post : α → γ → σ → Prop} {leaf : Except Fault δ → β → σ → Prop} {x : Except Fault γ}
    {f : γ → Except Fault δ} {p : Parser σ α} {q : α → Parser σ β} {s : σ}
    (h : Follows i At (Given post) x (p s))
    (hnext : ∀ v w s', x = .ok w → post v w s' → Follows i At leaf (f w) (q v s')) :
    Follows i At leaf (x >>= f) ((p >>= q) s) := by
  show Follows i At leaf (x >>= f) (EStateM.bind p q s)
  rw [EStateM.bind]
  generalize p s = r at h
  cases h with
  | ok hv =>
    obtain ⟨w, rfl, hpost⟩ := hv
    exact hnext _ w _ rfl hpost
  | placed hplace => exact .placed hplace
  | failed hending hat => exact .failed hending hat

/-- More is said of the value given. -/
theorem said {post : α → γ → σ → Prop} {leaf : Except Fault δ → α → σ → Prop} {x : Except Fault γ}
    {f : γ → Except Fault δ} {r : EStateM.Result Error σ α} (h : Follows i At (Given post) x r)
    (hleaf : ∀ v w s, post v w s → leaf (f w) v s) : Follows i At leaf (x >>= f) r := by
  cases h with
  | ok hv =>
    obtain ⟨w, rfl, hpost⟩ := hv
    exact .ok (hleaf _ w _ hpost)
  | placed hplace => exact .placed hplace
  | failed herror hat => exact .failed herror hat

theorem mono {leaf leaf' : Except Fault γ → α → σ → Prop} {x : Except Fault γ}
    {r : EStateM.Result Error σ α} (h : Follows i At leaf x r) (hleaf : ∀ x v s, leaf x v s → leaf' x v s) :
    Follows i At leaf' x r := by
  cases h with
  | ok hv => exact .ok (hleaf _ _ _ hv)
  | placed hplace => exact .placed hplace
  | failed herror hat => exact .failed herror hat

/-- A value is given, and the state is as it was. -/
theorem pure {leaf : Except Fault γ → α → σ → Prop} {x : Except Fault γ} {v : α} {s : σ}
    (h : leaf x v s) : Follows i At leaf x ((Pure.pure v : Parser σ α) s) :=
  .ok h

/-- A failure of the stream, where that is what is found. -/
theorem of_fails {leaf : Except Fault γ → α → σ → Prop} {x : Except Fault γ} {error : SystemError} {s : σ}
    (h : Fails i x) (herror : i.ending = .failing error) (hat : At s [] false) :
    Follows i At leaf x (.error ⟨.io error, none⟩ s) := by
  rw [h error herror]
  exact .failed herror hat

end Follows

namespace Reaches

variable {i : Input} {At : σ → Bytes → Bool → Prop} {v : α} {rest : Bytes}

theorem get {r : EStateM.Result Error σ α} (h : Reaches i At v rest r) (hrest : rest ≠ []) :
    ∃ s, r = .ok v s ∧ At s rest true := by
  cases h with
  | ok _ hat => exact ⟨_, rfl, hat⟩
  | failed hnil => exact absurd hnil hrest

/-- A step that looks ahead, and then what goes on from there. -/
theorem bind {leaf : Except Fault γ → β → σ → Prop} {x : Except Fault γ} {p : Parser σ α}
    {q : α → Parser σ β} {s : σ} (h : Reaches i At v rest (p s)) (hfails : rest = [] → Fails i x)
    (hnext : ∀ s', (rest = [] → i.ending = .closed) → At s' rest true → Follows i At leaf x (q v s')) :
    Follows i At leaf x ((p >>= q) s) := by
  show Follows i At leaf x (EStateM.bind p q s)
  rw [EStateM.bind]
  generalize p s = r at h
  cases h with
  | ok hclosed hat => exact hnext _ hclosed hat
  | failed hnil herror hat => exact .of_fails (hfails hnil) herror hat

end Reaches

namespace Simulation
open Json.Parser (fail failPeeked nextOr peekOr turns loop)

variable [Cursor σ] {i : Input} (sim : Simulation σ i) {s : σ} {ahead : Bytes} {looked : Bool}

/-- A state in which these bytes are ahead. -/
def Sees (s : σ) (ahead : Bytes) : Prop :=
  ∃ looked, sim.At s ahead looked

/-- A value and the bytes left are what is said, with the next byte looked at or not. -/
abbrev Took (looked : Bool) (v : α) (w : α × Bytes) (s : σ) : Prop :=
  v = w.1 ∧ sim.At s w.2 looked

/-- The bytes left are what is said, with the next byte looked at or not. -/
abbrev Passed (looked : Bool) (_ : Unit) (rest : Bytes) (s : σ) : Prop :=
  sim.At s rest looked

theorem took (h : sim.At s ahead looked) (v : α) : Given (sim.Took looked) (.ok (v, ahead)) v s :=
  ⟨(v, ahead), rfl, rfl, h⟩

theorem passed (h : sim.At s ahead looked) : Given (sim.Passed looked) (.ok ahead) () s :=
  ⟨ahead, rfl, h⟩

/-- A value and the bytes left are what is said, wherever the next byte is. -/
def Read (v : α) (w : α × Bytes) (s : σ) : Prop :=
  v = w.1 ∧ sim.Sees s w.2

/-- The bytes left are what is said, wherever the next byte is. -/
def Skipped (_ : Unit) (rest : Bytes) (s : σ) : Prop :=
  sim.Sees s rest

theorem read (h : sim.At s ahead looked) (v : α) : Given sim.Read (.ok (v, ahead)) v s :=
  ⟨(v, ahead), rfl, rfl, looked, h⟩

theorem follows_read {x : Except Fault (α × Bytes)} {r : EStateM.Result Error σ α}
    (h : Follows i sim.At (Given (sim.Took looked)) x r) : Follows i sim.At (Given sim.Read) x r :=
  h.mono fun _ _ _ ⟨w, hw, hv, hat⟩ => ⟨w, hw, hv, looked, hat⟩

theorem follows_skipped {x : Except Fault Bytes} {r : EStateM.Result Error σ Unit}
    (h : Follows i sim.At (Given (sim.Passed looked)) x r) : Follows i sim.At (Given sim.Skipped) x r :=
  h.mono fun _ _ _ ⟨rest, hrest, hat⟩ => ⟨rest, hrest, looked, hat⟩

/-! ### Errors -/

section
variable {leaf : Except Fault γ → α → σ → Prop}

theorem follows_fail (h : sim.At s ahead false) (cause : Cause) :
    Follows i sim.At leaf (.error ⟨cause, .consumed ahead.length⟩) (fail cause s) :=
  .placed (sim.place h)

theorem follows_fail_looked (h : sim.At s ahead true) (cause : Cause) :
    Follows i sim.At leaf (.error ⟨cause, .looked ahead.length⟩) (fail cause s) :=
  .placed (sim.placeLooked h)

theorem follows_failPeeked (h : sim.At s ahead true) (cause : Cause) :
    Follows i sim.At leaf (.error ⟨cause, .peeked ahead.length⟩) (failPeeked cause s) :=
  .placed (sim.peekPlace h)

/-- An end where there should be a byte. -/
theorem follows_fail_atEnd (hending : i.ending = .closed) (h : sim.At s [] looked) (cause : Cause) :
    Follows i sim.At leaf (.error (i.ending.fault cause)) (fail cause s) := by
  rw [hending]
  exact sim.follows_fail (sim.atEnd h) cause

theorem follows_failPeeked_atEnd (hending : i.ending = .closed) (h : sim.At s [] looked)
    (cause : Cause) : Follows i sim.At leaf (.error (i.ending.fault cause)) (failPeeked cause s) := by
  rw [hending]
  exact .placed (sim.peekPlace (sim.atEnd h))

end

section
variable {leaf : Except Fault γ → α → σ → Prop} {x : Except Fault γ} {p : Parser σ α}

/-- An error without a place is a failure to read, and is given the end of the bytes. -/
theorem placed_cases (h : Follows i sim.At leaf x (p s)) :
    (∃ v s', Parser.placed p s = .ok v s' ∧ leaf x v s') ∨
      ∃ fault place s', x = .error fault ∧ i.place? fault.mark = some place ∧
        Parser.placed p s = .error ⟨fault.cause, some place⟩ s' := by
  rw [Parser.placed]
  generalize p s = r at h
  cases h with
  | ok hv => exact .inl ⟨_, _, rfl, hv⟩
  | placed hplace => exact .inr ⟨_, _, _, rfl, hplace, rfl⟩
  | failed herror hat => exact .inr ⟨_, _, _, rfl, sim.place hat, rfl⟩

theorem follows_placed (h : Follows i sim.At leaf x (p s)) : Follows i sim.At leaf x (Parser.placed p s) := by
  rcases sim.placed_cases h with ⟨v, s', hp, hv⟩ | ⟨fault, place, s', rfl, hplace, hp⟩
  · rw [hp]
    exact .ok hv
  · rw [hp]
    exact .placed hplace

end

/-! ### Single bytes -/

section
variable {b : UInt8} {rest : Bytes}

theorem peek_cons (h : sim.At s (b :: rest) looked) :
    ∃ s', Cursor.peek s = .ok (some b) s' ∧ sim.At s' (b :: rest) true :=
  (sim.peek h).get (List.cons_ne_nil b rest)

theorem skip_cons (h : sim.At s (b :: rest) true) :
    ∃ s', Parser.skip s = .ok () s' ∧ sim.At s' rest false :=
  ⟨_, rfl, sim.skip h⟩

theorem nextOr_cons (h : sim.At s (b :: rest) looked) (ended : Cause) :
    ∃ s', nextOr ended s = .ok b s' ∧ sim.At s' rest false := by
  obtain ⟨s', hnext, hat⟩ := sim.next h
  exact ⟨s', by rw [nextOr, Parser.bind_of_ok hnext]; rfl, hat⟩

theorem peekOr_cons (h : sim.At s (b :: rest) looked) (ended : Cause) :
    ∃ s', peekOr ended s = .ok b s' ∧ sim.At s' (b :: rest) true := by
  obtain ⟨s', hpeek, hat⟩ := sim.peek_cons h
  exact ⟨s', by rw [peekOr, Parser.bind_of_ok hpeek]; rfl, hat⟩

end

section
variable {leaf : Except Fault γ → α → σ → Prop} {q : UInt8 → Parser σ α}

theorem follows_nextOr_nil (h : sim.At s [] looked) (ended : Cause) :
    Follows i sim.At leaf (.error (i.ending.fault ended)) ((nextOr ended >>= q) s) := by
  rw [nextOr, bind_assoc]
  exact (sim.nextAtEnd h).bind (fun _ => .fault ended) fun s' hclosed hat =>
    sim.follows_fail_atEnd (hclosed rfl) hat ended

theorem follows_peekOr_nil (h : sim.At s [] looked) (ended : Cause) :
    Follows i sim.At leaf (.error (i.ending.fault ended)) ((peekOr ended >>= q) s) := by
  rw [peekOr, bind_assoc]
  exact (sim.peek h).bind (fun _ => .fault ended) fun s' hclosed hat =>
    sim.follows_fail_atEnd (hclosed rfl) hat ended

end

/-! ### Loops -/

theorem follows_turns {I : β → σ → Bytes → Prop} {F : β → Bytes → Except Fault γ}
    {post : α → γ → σ → Prop} {turn : β → Parser σ (β ⊕ α)}
    (hturn : ∀ b s ahead, I b s ahead →
      Follows i sim.At (Turned I F post ahead) (F b ahead) (turn b s)) :
    ∀ (n : Nat) (b : β) (s : σ) (ahead : Bytes), I b s ahead → ahead.length < n →
      Follows i sim.At (Given post) (F b ahead) (turns turn n b s) := by
  intro n
  induction n with
  | zero => exact fun _ _ _ _ hlt => absurd hlt (Nat.not_lt_zero _)
  | succ n ih =>
    intro b s ahead hinv hlt
    have hone := hturn b s ahead hinv
    show Follows i sim.At (Given post) (F b ahead) (EStateM.bind (turn b) _ s)
    rw [EStateM.bind]
    generalize turn b s = r at hone
    generalize F b ahead = x at hone
    cases hone with
    | @ok _ v s' hv =>
      cases v with
      | inl b' =>
        obtain ⟨rest, hrest, hshorter, rfl⟩ := hv
        exact ih b' s' rest hrest (Nat.lt_of_lt_of_le hshorter (Nat.le_of_lt_succ hlt))
      | inr v => exact .ok hv
    | placed hplace => exact .placed hplace
    | failed hending hat => exact .failed hending hat

theorem follows_loop {I : β → σ → Bytes → Prop} {F : β → Bytes → Except Fault γ}
    {post : α → γ → σ → Prop} {turn : β → Parser σ (β ⊕ α)}
    (hsees : ∀ b s ahead, I b s ahead → sim.Sees s ahead)
    (hturn : ∀ b s ahead, I b s ahead →
      Follows i sim.At (Turned I F post ahead) (F b ahead) (turn b s))
    {b : β} (h : I b s ahead) : Follows i sim.At (Given post) (F b ahead) (loop turn b s) := by
  obtain ⟨looked, hat⟩ := hsees b s ahead h
  exact sim.follows_turns hturn _ b s ahead h (Nat.lt_succ_of_le (sim.left hat))

/-! ### Blanks -/

theorem turns_blanks : ∀ (n : Nat) (s : σ) (ahead : Bytes), sim.Sees s ahead → ahead.length < n →
    Reaches i sim.At (skipBlanks ahead).head? (skipBlanks ahead) (turns Parser.blankTurn n () s) := by
  intro n
  induction n with
  | zero => exact fun _ _ _ hlt => absurd hlt (Nat.not_lt_zero _)
  | succ n ih =>
    rintro s ahead ⟨looked, hat⟩ hlt
    cases ahead with
    | nil =>
      have hpeek := sim.peek hat
      show Reaches i sim.At _ _ (EStateM.bind (EStateM.bind Cursor.peek _) _ s)
      rw [EStateM.bind, EStateM.bind]
      generalize Cursor.peek s = r at hpeek
      cases hpeek with
      | ok hclosed hat => exact .ok hclosed hat
      | failed hnil herror hat => exact .failed rfl herror hat
    | cons b rest =>
      obtain ⟨s', hpeek, hat⟩ := sim.peek_cons hat
      by_cases hb : isBlank b = true
      · have hturn : Parser.blankTurn () s = .ok (.inl ()) (Cursor.skip s') := by
          rw [Parser.blankTurn, Parser.bind_of_ok hpeek]
          dsimp only
          rw [if_pos hb]
          rfl
        rw [turns, Parser.bind_of_ok hturn, skipBlanks, List.dropWhile_cons_of_pos hb]
        exact ih _ rest ⟨_, sim.skip hat⟩ (Nat.lt_of_succ_lt_succ hlt)
      · have hturn : Parser.blankTurn () s = .ok (.inr (some b)) s' := by
          rw [Parser.blankTurn, Parser.bind_of_ok hpeek]
          dsimp only
          rw [if_neg hb]
          rfl
        rw [turns, Parser.bind_of_ok hturn, skipBlanks, List.dropWhile_cons_of_neg hb]
        exact .ok (fun h => nomatch h) hat

theorem reaches_blanks (h : sim.Sees s ahead) :
    Reaches i sim.At (skipBlanks ahead).head? (skipBlanks ahead) (Parser.blanks s) := by
  obtain ⟨looked, hat⟩ := h
  exact sim.turns_blanks _ s ahead ⟨looked, hat⟩ (Nat.lt_succ_of_le (sim.left hat))

theorem blanksIfAny_eq (h : sim.Sees s ahead) :
    ∃ s', Parser.blanksIfAny s = .ok (skipBlanks ahead).head? s' ∧ sim.At s' (skipBlanks ahead) true := by
  have hblanks := sim.reaches_blanks h
  rw [Parser.blanksIfAny]
  generalize Parser.blanks s = r at hblanks
  cases hblanks with
  | ok _ hat => exact ⟨_, rfl, hat⟩
  | failed hnil _ hat =>
    rw [hnil]
    exact ⟨_, rfl, sim.atEnd hat⟩

section
variable {leaf : Except Fault γ → α → σ → Prop} {x : Except Fault γ} {p : UInt8 → Parser σ α}

/-- What goes on behind blanks is told by the byte that stands there. -/
theorem follows_behindBlanks {ended : Cause} {read : UInt8 → Bytes → Except Fault γ}
    (h : sim.Sees s ahead)
    (hp : ∀ b rest s', skipBlanks ahead = b :: rest → sim.At s' (b :: rest) true →
      Follows i sim.At leaf (read b rest) (p b s')) :
    Follows i sim.At leaf
      (match skipBlanks ahead with
        | [] => .error (i.ending.fault ended)
        | b :: rest => read b rest)
      (Parser.behindBlanks ended p s) := by
  have hblanks := sim.reaches_blanks h
  generalize hahead : skipBlanks ahead = behind at hblanks hp
  rw [Parser.behindBlanks]
  cases behind with
  | nil =>
    exact hblanks.bind (fun _ => .fault ended) fun s' hclosed hat =>
      sim.follows_failPeeked_atEnd (hclosed rfl) hat ended
  | cons b rest =>
    exact hblanks.bind (fun hnil => nomatch hnil) fun s' _ hat => hp b rest s' rfl hat

end

end Simulation

end BuildFleet.Json
