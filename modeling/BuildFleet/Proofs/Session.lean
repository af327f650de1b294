import BuildFleet.Session

/-!
# Sessions — what steps leave as it was

A step is about one part of a session at most (`Step.part?`), and the other parts are the same after it,
whether it fails or not (`Session.step_keeps`); so are the parts that none of several steps is about
(`Session.final_keeps`).

A step that fails leaves everything as it was, so a session comes to where the steps that succeed would
have brought it alone (`Session.final_succeeding`).
-/

namespace BuildFleet.Session

/-- The parts of a session. -/
inductive Part where
  | mode
  | table
  | runners
  deriving DecidableEq

/-- The part that a step is about, if it does not just ask. -/
def Step.part? : Step → Option Part
  | .setMode _ => some .mode
  | .setTable _ => some .table
  | .setRunners _ | .push _ | .replace .. | .remove _ | .reverse | .reset => some .runners
  | .askMatches | .askNamed _ | .askSelection => none

/-- A part is the same in two sessions. -/
def Part.Same (s s' : Session) : Part → Prop
  | mode => s.mode = s'.mode
  | table => s.table = s'.table
  | runners => s.runners = s'.runners

theorem Part.Same.refl (s : Session) (part : Part) : part.Same s s := by
  cases part <;> rfl

theorem Part.Same.trans {s s' s'' : Session} {part : Part} (h : part.Same s s')
    (h' : part.Same s' s'') : part.Same s s'' := by
  cases part with
  | mode | table | runners => exact Eq.trans h h'

/-- The session after all of these steps. -/
def final (s : Session) : List Step → Session
  | [] => s
  | next :: rest => (s.after (s.step next)).final rest

/-- Of these steps, those that succeed where they come. -/
def succeeding (s : Session) : List Step → List Step
  | [] => []
  | next :: rest =>
    match (s.step next).outcome with
    | .ok _ => next :: (s.after (s.step next)).succeeding rest
    | .error _ => s.succeeding rest

variable {s : Session}

/-! ### One step -/

theorem after_of_error {answer : Attempt StepFailure (Answer × Session)} {failure : StepFailure}
    (h : answer.outcome = .error failure) : s.after answer = s := by
  rw [after, h]

/-- A step that hands on what an attempt made of an input, and does not change the session otherwise,
keeps a part that what was made is not put into. -/
theorem keeps_of_attempt {α : Type} {part : Part} (x : Attempt Failure α) (answer : α → Answer)
    (put : α → Session) (hput : ∀ v, part.Same s (put v)) :
    part.Same s (s.after (do let v ← x.inContext .failed; pure (answer v, put v))) := by
  obtain ⟨events, output, failure | v⟩ := x
  · exact .refl s part
  · exact hput v

theorem Part.Same.putMode (mode : Mode) {part : Part} (h : some Part.mode ≠ some part) :
    part.Same s { s with mode } := by
  cases part with
  | mode => exact absurd rfl h
  | table | runners => rfl

theorem Part.Same.putTable (table : Table) {part : Part} (h : some Part.table ≠ some part) :
    part.Same s { s with table } := by
  cases part with
  | table => exact absurd rfl h
  | mode | runners => rfl

theorem Part.Same.putRunners (runners : List Runner) {part : Part}
    (h : some Part.runners ≠ some part) : part.Same s { s with runners } := by
  cases part with
  | runners => exact absurd rfl h
  | mode | table => rfl

/-- **A step changes the part that it is about**, and no other. -/
theorem step_keeps {next : Step} {part : Part} (h : next.part? ≠ some part) :
    part.Same s (s.after (s.step next)) := by
  cases next with
  | setMode mode => exact .putMode mode h
  | setTable given => exact keeps_of_attempt given.table .table _ fun table => .putTable table h
  | setRunners input =>
    exact keeps_of_attempt (Listing.read input) .runners _ fun runners => .putRunners runners h
  | push | reverse | reset => exact .putRunners _ h
  | replace index r =>
    rw [step]
    split
    · exact .putRunners _ h
    · exact .refl s part
  | remove index =>
    rw [step]
    split
    · exact .putRunners _ h
    · exact .refl s part
  | askMatches | askNamed => exact .refl s part
  | askSelection => exact keeps_of_attempt _ .ids _ fun _ => .refl s part

/-! ### Several steps -/

theorem final_keeps {part : Part} {steps : List Step} (h : ∀ next ∈ steps, next.part? ≠ some part) :
    part.Same s (s.final steps) := by
  induction steps generalizing s with
  | nil => exact .refl s part
  | cons next rest ih =>
    obtain ⟨hnext, hrest⟩ := List.forall_mem_cons.mp h
    exact (step_keeps hnext).trans (ih hrest)

/-- The steps of a session one after the other end where it comes to. -/
theorem getLast?_steps (next : Step) (rest : List Step) :
    (s.steps (next :: rest)).getLast?.map (·.2) = some (s.final (next :: rest)) := by
  induction rest generalizing s next with
  | nil => rfl
  | cons later rest ih =>
    rw [steps, steps, List.getLast?_cons_cons]
    exact ih later

/-- **Steps that fail can be left out.** -/
theorem final_succeeding (steps : List Step) :
    s.final (s.succeeding steps) = s.final steps ∧
      ∀ answered ∈ s.steps (s.succeeding steps), ∃ v, answered.1.outcome = .ok v := by
  induction steps generalizing s with
  | nil =>
    rw [succeeding, final, steps]
    exact ⟨rfl, List.forall_mem_nil _⟩
  | cons next rest ih =>
    rw [succeeding, final]
    cases hstep : (s.step next).outcome with
    | error failure =>
      dsimp only
      rw [after_of_error hstep]
      exact ih
    | ok v =>
      obtain ⟨hfinal, hanswers⟩ := ih (s := s.after (s.step next))
      dsimp only
      rw [final, steps, List.forall_mem_cons]
      exact ⟨hfinal, ⟨v, hstep⟩, hanswers⟩

end BuildFleet.Session
