import BuildFleet.Machine.Loading
import BuildFleet.Runner.Listing
import BuildFleet.Selection

/-!
# Attempts — what a chain of attempts leaves behind

The events and the text of an attempt are those of its steps, up to the first that fails
(`bind_of_ok`, `bind_of_error`).  An attempt is *unwritten* if it has written nothing.

* `TableSource.unwritten_load`, `Listing.unwritten_read`: loading a table and reading a listing write
  nothing, whether they succeed or not.
* `TableSource.filter_events_load`, `Listing.filter_events_read`: neither warns about the mode.
* `select_of_ok`, `select_of_error`: a selection is logged, and writes nothing.
-/

namespace BuildFleet

namespace Attempt
variable {ε ε' α β : Type}

theorem bind_of_ok {x : Attempt ε α} {f : α → Attempt ε β} {v : α} (h : x.outcome = .ok v) :
    x >>= f = ⟨x.events ++ (f v).events, x.output ++ (f v).output, (f v).outcome⟩ := by
  show x.andThen f = _
  rw [andThen, h]

theorem bind_of_error {x : Attempt ε α} {f : α → Attempt ε β} {e : ε} (h : x.outcome = .error e) :
    x >>= f = ⟨x.events, x.output, .error e⟩ := by
  show x.andThen f = _
  rw [andThen, h]

theorem inContext_outcome_of_ok {x : Attempt ε α} {f : ε → ε'} {v : α} (h : x.outcome = .ok v) :
    (x.inContext f).outcome = .ok v := by
  show x.outcome.mapError f = _
  rw [h]; rfl

theorem inContext_outcome_of_error {x : Attempt ε α} {f : ε → ε'} {e : ε}
    (h : x.outcome = .error e) : (x.inContext f).outcome = .error (f e) := by
  show x.outcome.mapError f = _
  rw [h]; rfl

/-- Nothing has been written. -/
def Unwritten (x : Attempt ε α) : Prop := x.output = ""

theorem unwritten_bind {x : Attempt ε α} {f : α → Attempt ε β} (hx : x.Unwritten)
    (hf : ∀ v, (f v).Unwritten) : (x >>= f).Unwritten := by
  cases h : x.outcome with
  | error e => rw [bind_of_error h]; exact hx
  | ok v =>
    rw [bind_of_ok h]
    show x.output ++ (f v).output = ""
    rw [hx, hf v]; rfl

end Attempt

/-- The warning about an unrecognized mode. -/
def Event.isModeWarning : Event → Bool
  | .modeUnrecognized _ => true
  | _ => false

/-! ### The stages of a run -/

theorem Table.filter_warningsAfter (machines : List Machine) (earlier : List String) :
    (Table.warningsAfter earlier machines).filter Event.isModeWarning = [] := by
  induction machines generalizing earlier with
  | nil => rfl
  | cons m rest ih =>
    have h : (Table.machineWarnings earlier m).filter Event.isModeWarning = [] := by
      rw [Table.machineWarnings]
      split <;> split <;> rfl
    rw [Table.warningsAfter, List.filter_append, h, ih, List.append_nil]

theorem Table.filter_events_read (input : Json.Input) :
    (Table.read input).events.filter Event.isModeWarning = [] := by
  rw [Table.read]
  split
  · rename_i machines _
    show ((Table.warnings ⟨machines⟩ ++ []).filter Event.isModeWarning) = []
    rw [List.append_nil, Table.warnings, List.filter_append, Table.filter_warningsAfter]
    split <;> rfl
  · rfl

theorem Table.unwritten_read (input : Json.Input) : (Table.read input).Unwritten := by
  rw [Table.read]
  split <;> rfl

theorem TableSource.filter_events_load (files : Files) (source : TableSource) :
    (source.load files).events.filter Event.isModeWarning = [] := by
  cases source with
  | builtin => exact Table.filter_events_read (.ofString Table.builtinText)
  | file path =>
    show ((Table.load files path).events.filter Event.isModeWarning) = []
    rw [Table.load]
    split
    · rfl
    · rename_i input _
      exact Table.filter_events_read input

theorem TableSource.unwritten_load (files : Files) (source : TableSource) :
    (source.load files).Unwritten := by
  cases source with
  | builtin => exact Table.unwritten_read (.ofString Table.builtinText)
  | file path =>
    show (Table.load files path).Unwritten
    rw [Table.load]
    split
    · rfl
    · exact Attempt.unwritten_bind rfl fun _ => Table.unwritten_read _

theorem Listing.filter_events_read (input : Json.Input) :
    (Listing.read input).events.filter Event.isModeWarning = [] := by
  rw [Listing.read]
  split <;> rfl

theorem Listing.unwritten_read (input : Json.Input) : (Listing.read input).Unwritten := by
  rw [Listing.read]
  split <;> rfl

theorem Listing.read_of_outcome {input : Json.Input} {runners : List Runner}
    (h : (Listing.read input).outcome = .ok runners) :
    Listing.read input = ⟨[.listingParsed runners.length], "", .ok runners⟩ := by
  rw [Listing.read] at h ⊢
  split at h
  · cases h
    rfl
  · cases h
  · cases h

theorem select_of_error {mode : Mode} {runners : List Runner} {table : Table} {failure : Failure}
    (h : selection mode runners table = .error failure) :
    select mode runners table = .fail failure := by
  rw [select, h]; rfl

theorem select_of_ok {mode : Mode} {runners : List Runner} {table : Table} {ids : List String}
    (h : selection mode runners table = .ok ids) :
    select mode runners table = ⟨[.selected mode ids.length runners.length], "", .ok ids⟩ := by
  rw [select, h]; rfl

end BuildFleet
