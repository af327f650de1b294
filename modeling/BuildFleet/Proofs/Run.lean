import BuildFleet.Proofs.Attempt
import BuildFleet.Proofs.Output
import BuildFleet.Proofs.Selection.Required
import BuildFleet.Run

/-!
# Runs — all or nothing, stage by stage

A run loads a table, opens and reads a listing, selects, and writes.  It ends with the first of these
stages that fails, and the last is the only one that writes.

`Run.Staged` says what a run comes to, by the first stage that fails: the conditions of each clause
speak of the stages up to that one, so the later stages and what they would have done make no
difference.  `run_staged` proves it of every run.

A run that fails before it writes has written nothing.  One that comes to the writing has written all
that was selected if there is room for it; if not, the standard output holds a front of that
(`run_cases`).

The listing is opened before it is read (`Run.opened`), and a run that has come that far warns about
a mode that it does not recognize; no other run does (`Staged.modeWarnings`).
-/

namespace BuildFleet.Run
open Attempt

/-- The input that holds the listing, or why it cannot be opened. -/
def opened (around : Surroundings) (settings : Settings) : Except SystemError Json.Input :=
  match settings.input with
  | .stdin => .ok around.stdin
  | .file path => around.files path

/-- The table of the settings is loaded. -/
def Loads (around : Surroundings) (settings : Settings) (table : Table) : Prop :=
  (settings.machines.load around.files).outcome = .ok table

/-- The listing of the settings is opened and read. -/
def Reads (around : Surroundings) (settings : Settings) (runners : List Runner) : Prop :=
  ∃ input, opened around settings = .ok input ∧ (Listing.read input).outcome = .ok runners

/-- The run ends with this failure, whose message begins with the context, and nothing has been
written. -/
def FailsWith (around : Surroundings) (settings : Settings) (failure : RunFailure)
    (context : String) : Prop :=
  (run around settings).outcome = .error failure ∧ failure.chain.head? = some context ∧
    (run around settings).Unwritten

/-- What a run comes to, by the first stage that fails. -/
structure Staged (around : Surroundings) (settings : Settings) : Prop where
  /-- The table is not loaded. -/
  table : ∀ failure, (settings.machines.load around.files).outcome = .error failure →
    FailsWith around settings (.loadingTable failure) "Failed to load machine table"
  /-- The listing is not opened; only a file can refuse that. -/
  opening : ∀ table error, Loads around settings table → opened around settings = .error error →
    ∃ path, settings.input = .file path ∧
      FailsWith around settings (.openingListing path error)
        ("Failed to open runners document " ++ path)
  /-- The listing is opened, but not read. -/
  reading : ∀ table input failure, Loads around settings table →
    opened around settings = .ok input → (Listing.read input).outcome = .error failure →
    FailsWith around settings (.readingListing failure) "Failed to read runners document"
  /-- A runner misses a field. -/
  selecting : ∀ table runners failure, Loads around settings table → Reads around settings runners →
    selection settings.mode runners table = .error failure →
    FailsWith around settings (.selecting failure) "Failed to select machines"
  /-- There are ids.  With room for all of them they are written; without, a front of them is that is not
  too long. -/
  writing : ∀ table runners ids, Loads around settings table → Reads around settings runners →
    selection settings.mode runners table = .ok ids →
    ((run around settings).outcome = .ok () ↔ Fits around.room (lines ids)) ∧
    ((run around settings).outcome = .ok () → (run around settings).output = lines ids) ∧
    ∀ failure, (run around settings).outcome = .error failure →
      (∃ error, failure = .writing error ∧ failure.chain.head? = some "Failed to write machine ids") ∧
        Fits around.room (run around settings).output ∧
        ∃ rest, lines ids = (run around settings).output ++ rest
  /-- A mode that is not recognized selects nothing. -/
  unrecognized : ∀ table runners, Loads around settings table → Reads around settings runners →
    settings.mode.isRecognized = false →
    selection settings.mode runners table = .ok [] ∧
      (run around settings).outcome = .ok () ∧ (run around settings).Unwritten
  /-- It is warned about once if the table and the listing are there, and otherwise not. -/
  modeWarnings :
    (settings.mode.isRecognized = false ∧ (∃ table, Loads around settings table) ∧
        (∃ runners, Reads around settings runners) →
      (run around settings).events.filter Event.isModeWarning =
        [.modeUnrecognized settings.mode]) ∧
    (¬ (settings.mode.isRecognized = false ∧ (∃ table, Loads around settings table) ∧
        (∃ runners, Reads around settings runners)) →
      (run around settings).events.filter Event.isModeWarning = [])

variable {around : Surroundings} {settings : Settings} {table : Table} {runners : List Runner}

/-! ### The first two stages -/

theorem loadTable_of_error {failure : Failure}
    (h : (settings.machines.load around.files).outcome = .error failure) :
    loadTable around settings =
      ⟨(settings.machines.load around.files).events, "", .error (.loadingTable failure)⟩ := by
  rw [loadTable, bind_of_error (inContext_outcome_of_error h)]
  exact congrArg (Attempt.mk _ · _) (TableSource.unwritten_load _ _)

theorem loadTable_of_ok (h : Loads around settings table) :
    loadTable around settings =
      ⟨(settings.machines.load around.files).events ++ [.tableLoaded table.size], "", .ok table⟩ := by
  rw [loadTable, bind_of_ok (inContext_outcome_of_ok h)]
  exact congrArg (Attempt.mk _ · _) (congrArg (· ++ "") (TableSource.unwritten_load _ _))

theorem readListing_of_opened {input : Json.Input} (h : opened around settings = .ok input) :
    readListing around settings = (Listing.read input).inContext .readingListing := by
  obtain ⟨mode, machines, source⟩ := settings
  cases source with
  | stdin =>
    cases h
    rfl
  | file path =>
    change around.files path = .ok input at h
    simp only [readListing, h]

theorem readListing_of_not_opened {error : SystemError}
    (h : opened around settings = .error error) :
    ∃ path, settings.input = .file path ∧
      readListing around settings = .fail (.openingListing path error) := by
  obtain ⟨mode, machines, source⟩ := settings
  cases source with
  | stdin => cases h
  | file path =>
    change around.files path = .error error at h
    exact ⟨path, rfl, by simp only [readListing, h]⟩

theorem readListing_outcome_of_reads (h : Reads around settings runners) :
    (readListing around settings).outcome = .ok runners := by
  obtain ⟨input, ho, hr⟩ := h
  rw [readListing_of_opened ho]
  exact inContext_outcome_of_ok hr

/-- A listing that is not read is the failure of its stage. -/
theorem readListing_outcome_of_not_reads (h : ¬ ∃ runners, Reads around settings runners) :
    ∃ failure, (readListing around settings).outcome = .error failure ∧
      ∀ error, failure ≠ .writing error := by
  cases ho : opened around settings with
  | error error =>
    obtain ⟨path, -, hr⟩ := readListing_of_not_opened ho
    exact ⟨_, congrArg Attempt.outcome hr, nofun⟩
  | ok input =>
    cases hr : (Listing.read input).outcome with
    | error failure =>
      rw [readListing_of_opened ho]
      exact ⟨_, inContext_outcome_of_error hr, nofun⟩
    | ok runners => exact absurd ⟨runners, input, ho, hr⟩ h

theorem unwritten_readListing (around : Surroundings) (settings : Settings) :
    (readListing around settings).Unwritten := by
  cases ho : opened around settings with
  | error error =>
    obtain ⟨path, -, hr⟩ := readListing_of_not_opened ho
    rw [hr]; rfl
  | ok input =>
    rw [readListing_of_opened ho]
    exact Listing.unwritten_read input

theorem filter_events_readListing (around : Surroundings) (settings : Settings) :
    (readListing around settings).events.filter Event.isModeWarning = [] := by
  cases ho : opened around settings with
  | error error =>
    obtain ⟨path, -, hr⟩ := readListing_of_not_opened ho
    rw [hr]; rfl
  | ok input =>
    rw [readListing_of_opened ho]
    exact Listing.filter_events_read input

/-! ### The run, from where it stands -/

/-- What is left of a run once the table and the listing are there. -/
def remaining (around : Surroundings) (mode : Mode) (runners : List Runner) (table : Table) :
    Attempt RunFailure Unit := do
  Attempt.log (modeWarnings mode)
  let ids ← (select mode runners table).inContext .selecting
  write around ids

theorem run_of_table_error {failure : Failure}
    (h : (settings.machines.load around.files).outcome = .error failure) :
    run around settings =
      ⟨(settings.machines.load around.files).events, "", .error (.loadingTable failure)⟩ := by
  rw [run, bind_of_error (by rw [loadTable_of_error h]), loadTable_of_error h]

theorem run_of_loads (h : Loads around settings table) :
    run around settings =
      let after := readListing around settings >>= fun runners =>
        remaining around settings.mode runners table
      ⟨(settings.machines.load around.files).events ++ [.tableLoaded table.size] ++ after.events,
        after.output, after.outcome⟩ := by
  rw [run, bind_of_ok (by rw [loadTable_of_ok h]), loadTable_of_ok h]
  exact congrArg (Attempt.mk _ · _) String.empty_append

theorem run_of_listing_error {failure : RunFailure} (ht : Loads around settings table)
    (h : (readListing around settings).outcome = .error failure) :
    (run around settings).outcome = .error failure ∧ (run around settings).Unwritten := by
  rw [run_of_loads ht, bind_of_error h]
  exact ⟨rfl, unwritten_readListing around settings⟩

/-- A run without a listing fails, with a table or not, and has written nothing. -/
theorem run_of_not_reads (h : ¬ ∃ runners, Reads around settings runners) :
    (∃ failure, (run around settings).outcome = .error failure) ∧ (run around settings).Unwritten := by
  cases ht : (settings.machines.load around.files).outcome with
  | error failure =>
    rw [run_of_table_error ht]
    exact ⟨⟨_, rfl⟩, rfl⟩
  | ok table =>
    obtain ⟨failure, hr, -⟩ := readListing_outcome_of_not_reads h
    obtain ⟨hout, hun⟩ := run_of_listing_error ht hr
    exact ⟨⟨failure, hout⟩, hun⟩

theorem run_of_reads (ht : Loads around settings table) (hr : Reads around settings runners) :
    (run around settings).outcome = (remaining around settings.mode runners table).outcome ∧
      (run around settings).output = (remaining around settings.mode runners table).output := by
  rw [run_of_loads ht, bind_of_ok (readListing_outcome_of_reads hr)]
  refine ⟨rfl, ?_⟩
  show (readListing around settings).output ++ _ = _
  rw [unwritten_readListing around settings, String.empty_append]

/-! ### Selecting and writing -/

theorem remaining_of_selection_error {mode : Mode} {failure : Failure}
    (h : selection mode runners table = .error failure) :
    remaining around mode runners table = ⟨modeWarnings mode, "", .error (.selecting failure)⟩ := by
  have hs : ((select mode runners table).inContext RunFailure.selecting).outcome =
      .error (.selecting failure) := by
    rw [select_of_error h]; rfl
  rw [remaining, bind_of_ok (v := ()) rfl, bind_of_error hs, select_of_error h]
  simp [Attempt.log, Attempt.fail, Attempt.ofExcept, Attempt.inContext]

theorem remaining_of_selection_ok {mode : Mode} {ids : List String}
    (h : selection mode runners table = .ok ids) :
    remaining around mode runners table =
      ⟨modeWarnings mode ++ ([.selected mode ids.length runners.length] ++ (write around ids).events),
        (write around ids).output, (write around ids).outcome⟩ := by
  have hs : ((select mode runners table).inContext RunFailure.selecting).outcome = .ok ids := by
    rw [select_of_ok h]; rfl
  rw [remaining, bind_of_ok (v := ()) rfl, bind_of_ok hs, select_of_ok h]
  simp [Attempt.log, Attempt.inContext]

/-- The ids are all written, or there are too many for the room, and a front of them is written. -/
theorem write_cases (around : Surroundings) (ids : List String) :
    (Fits around.room (lines ids) ∧ write around ids = ⟨[], lines ids, .ok ()⟩) ∨
      ¬ Fits around.room (lines ids) ∧ ∃ error front rest,
        write around ids = ⟨[], front, .error (.writing error)⟩ ∧ Fits around.room front ∧
          lines ids = front ++ rest := by
  rcases Buffered.writeLines_cases ids around.room with
    ⟨w, hw, hfits, hclose⟩ | ⟨error, w, hw, hfull, hclose, rest, hrest⟩
  · refine .inl ⟨hfits, ?_⟩
    rw [write, hw]
    exact congrArg (Attempt.mk [] · _) hclose
  · refine .inr ⟨hfull, error, w.close, rest, ?_, hclose, hrest⟩
    rw [write, hw]

theorem write_of_fits {ids : List String} (h : Fits around.room (lines ids)) :
    write around ids = ⟨[], lines ids, .ok ()⟩ := by
  rcases write_cases around ids with ⟨-, hw⟩ | ⟨hfull, -⟩
  · exact hw
  · exact absurd h hfull

theorem filter_events_write (ids : List String) :
    (write around ids).events.filter Event.isModeWarning = [] := by
  unfold write
  split <;> rfl

theorem filter_modeWarnings_of_recognized {mode : Mode} (h : mode.isRecognized ≠ false) :
    (modeWarnings mode).filter Event.isModeWarning = [] := by
  rw [modeWarnings, if_pos (by simpa using h)]; rfl

theorem filter_modeWarnings_of_unrecognized {mode : Mode} (h : mode.isRecognized = false) :
    (modeWarnings mode).filter Event.isModeWarning = [.modeUnrecognized mode] := by
  rw [modeWarnings, h]; rfl

theorem filter_events_remaining (mode : Mode) :
    (remaining around mode runners table).events.filter Event.isModeWarning =
      (modeWarnings mode).filter Event.isModeWarning := by
  cases h : selection mode runners table with
  | error failure => rw [remaining_of_selection_error h]
  | ok ids =>
    rw [remaining_of_selection_ok h]
    simp only [List.filter_append, filter_events_write, List.append_nil]
    exact List.append_nil _

/-- A mode that is not recognized reads nothing of the runners. -/
theorem selection_of_unrecognized {mode : Mode} (h : mode.isRecognized = false)
    (runners : List Runner) (table : Table) : selection mode runners table = .ok [] := by
  cases mode with
  | unrecognized text =>
    refine Selection.ofRunners_eq_ok_iff.mpr ⟨fun r _ field hm => ?_, ?_⟩
    · cases hm.1 with
      | status h | name h => cases h
      | busy h => rcases h with h | h <;> cases h
    · rw [eq_comm, List.flatMap_eq_nil_iff]
      exact fun r _ => rfl
  | _ => cases h

/-! ### All of the run -/

/-- A run that has come to the writing ends with what that comes to. -/
theorem run_of_selection_ok {ids : List String} (ht : Loads around settings table)
    (hr : Reads around settings runners) (hids : selection settings.mode runners table = .ok ids) :
    (run around settings).outcome = (write around ids).outcome ∧
      (run around settings).output = (write around ids).output := by
  obtain ⟨hout, htext⟩ := run_of_reads ht hr
  rw [remaining_of_selection_ok hids] at hout htext
  exact ⟨hout, htext⟩

theorem run_of_room {ids : List String} (ht : Loads around settings table)
    (hr : Reads around settings runners) (hids : selection settings.mode runners table = .ok ids)
    (hroom : Fits around.room (lines ids)) :
    (run around settings).outcome = .ok () ∧ (run around settings).output = lines ids := by
  obtain ⟨hout, htext⟩ := run_of_selection_ok ht hr hids
  rw [write_of_fits hroom] at hout htext
  exact ⟨hout, htext⟩

/-- A run fails before it writes, and has written nothing; or it has a table, a listing and a selection,
and ends with the writing of that. -/
theorem run_cases (around : Surroundings) (settings : Settings) :
    (∃ failure, (run around settings).outcome = .error failure ∧ (∀ error, failure ≠ .writing error) ∧
      (run around settings).Unwritten) ∨
    ∃ table runners ids, Loads around settings table ∧ Reads around settings runners ∧
      selection settings.mode runners table = .ok ids ∧
      (run around settings).outcome = (write around ids).outcome ∧
      (run around settings).output = (write around ids).output := by
  cases ht : (settings.machines.load around.files).outcome with
  | error failure =>
    rw [run_of_table_error ht]
    exact .inl ⟨_, rfl, nofun, rfl⟩
  | ok table =>
    by_cases hr : ∃ runners, Reads around settings runners
    case neg =>
      obtain ⟨failure, hread, hwriting⟩ := readListing_outcome_of_not_reads hr
      obtain ⟨hout, hun⟩ := run_of_listing_error ht hread
      exact .inl ⟨failure, hout, hwriting, hun⟩
    obtain ⟨runners, hr⟩ := hr
    cases hids : selection settings.mode runners table with
    | error cause =>
      obtain ⟨hout, htext⟩ := run_of_reads ht hr
      rw [remaining_of_selection_error hids] at hout htext
      exact .inl ⟨_, hout, nofun, htext⟩
    | ok ids => exact .inr ⟨table, runners, ids, ht, hr, hids, run_of_selection_ok ht hr hids⟩

/-- What fails before the writing has written nothing. -/
theorem unwritten_of_error {failure : RunFailure} (h : (run around settings).outcome = .error failure)
    (hwriting : ∀ error, failure ≠ .writing error) : (run around settings).Unwritten := by
  rcases run_cases around settings with ⟨_, -, -, hun⟩ | ⟨_, _, ids, -, -, -, hout, -⟩
  · exact hun
  · rcases write_cases around ids with ⟨-, hw⟩ | ⟨-, error, _, _, hw, -⟩
    · rw [hw, h] at hout
      cases hout
    · rw [hw, h] at hout
      exact absurd (Except.error.inj hout) (hwriting error)

/-- With no limit to the room, the writing does not fail. -/
theorem outcome_ne_writing (hroom : around.room = none) {failure : RunFailure}
    (h : (run around settings).outcome = .error failure) (error : SystemError) :
    failure ≠ .writing error := by
  rcases run_cases around settings with ⟨_, hout, hwriting, -⟩ | ⟨_, _, ids, -, -, -, hout, -⟩
  · cases hout.symm.trans h
    exact hwriting error
  · rw [h, write_of_fits (hroom ▸ fits_none (lines ids))] at hout
    cases hout

theorem exists_of_ok (h : (run around settings).outcome = .ok ()) :
    ∃ table runners ids, Loads around settings table ∧ Reads around settings runners ∧
      selection settings.mode runners table = .ok ids ∧ (run around settings).output = lines ids := by
  rcases run_cases around settings with
    ⟨_, hout, -⟩ | ⟨table, runners, ids, ht, hr, hids, hout, htext⟩
  · cases hout.symm.trans h
  · refine ⟨table, runners, ids, ht, hr, hids, ?_⟩
    rcases write_cases around ids with ⟨-, hw⟩ | ⟨-, _, _, _, hw, -⟩
    · rw [htext, hw]
    · rw [hw, h] at hout
      cases hout

/-- What a run leaves behind that has written its ids. -/
theorem run_of_unlimited {ids : List String} (ht : Loads around settings table)
    (hr : Reads around settings runners) (hids : selection settings.mode runners table = .ok ids)
    (hroom : around.room = none) :
    run around settings =
      ⟨(settings.machines.load around.files).events ++ [.tableLoaded table.size] ++
          ([.listingParsed runners.length] ++
            (modeWarnings settings.mode ++ [.selected settings.mode ids.length runners.length])),
        lines ids, .ok ()⟩ := by
  have hread : readListing around settings = ⟨[.listingParsed runners.length], "", .ok runners⟩ := by
    obtain ⟨input, ho, hr⟩ := hr
    rw [readListing_of_opened ho, Listing.read_of_outcome hr]
    rfl
  rw [run_of_loads ht, bind_of_ok (congrArg Attempt.outcome hread), hread,
    remaining_of_selection_ok hids, write_of_fits (hroom ▸ fits_none (lines ids))]
  simp

theorem filter_events_of_loads (ht : Loads around settings table) :
    (run around settings).events.filter Event.isModeWarning =
      ((readListing around settings >>= fun runners =>
        remaining around settings.mode runners table).events).filter Event.isModeWarning := by
  rw [run_of_loads ht]
  simp only [List.filter_append, TableSource.filter_events_load, List.nil_append]
  rfl

theorem filter_events_of_reads (ht : Loads around settings table)
    (hr : Reads around settings runners) :
    (run around settings).events.filter Event.isModeWarning =
      (modeWarnings settings.mode).filter Event.isModeWarning := by
  rw [filter_events_of_loads ht, bind_of_ok (readListing_outcome_of_reads hr)]
  simp only [List.filter_append, filter_events_readListing, filter_events_remaining,
    List.nil_append]

/-- A run that has not come as far as a listing does not warn about the mode. -/
theorem filter_events_of_not_reads
    (h : ¬ ((∃ table, Loads around settings table) ∧ ∃ runners, Reads around settings runners)) :
    (run around settings).events.filter Event.isModeWarning = [] := by
  cases ht : (settings.machines.load around.files).outcome with
  | error failure =>
    rw [run_of_table_error ht]
    exact TableSource.filter_events_load _ _
  | ok table =>
    obtain ⟨failure, hr, -⟩ := readListing_outcome_of_not_reads fun hr => h ⟨⟨table, ht⟩, hr⟩
    rw [filter_events_of_loads ht, bind_of_error hr]
    exact filter_events_readListing around settings

/-- **A run is all or nothing**, and ends with the first stage that fails. -/
theorem run_staged (around : Surroundings) (settings : Settings) : Staged around settings where
  table failure h := by
    refine ⟨?_, rfl, ?_⟩ <;> rw [run_of_table_error h]
    rfl
  opening table error ht ho := by
    obtain ⟨path, hs, hr⟩ := readListing_of_not_opened ho
    obtain ⟨hout, hun⟩ := run_of_listing_error ht (congrArg Attempt.outcome hr)
    exact ⟨path, hs, hout, rfl, hun⟩
  reading table input failure ht ho hf := by
    have hr : (readListing around settings).outcome = .error (.readingListing failure) := by
      rw [readListing_of_opened ho]
      exact inContext_outcome_of_error hf
    obtain ⟨hout, hun⟩ := run_of_listing_error ht hr
    exact ⟨hout, rfl, hun⟩
  selecting table runners failure ht hr hf := by
    obtain ⟨hout, htext⟩ := run_of_reads ht hr
    rw [remaining_of_selection_error hf] at hout htext
    exact ⟨hout, rfl, htext⟩
  writing table runners ids ht hr hids := by
    obtain ⟨hout, htext⟩ := run_of_selection_ok ht hr hids
    rw [hout, htext]
    rcases write_cases around ids with ⟨hfits, hw⟩ | ⟨hfull, error, front, rest, hw, hfront, hrest⟩
    · rw [hw]
      exact ⟨⟨fun _ => hfits, fun _ => rfl⟩, fun _ => rfl, nofun⟩
    · rw [hw]
      refine ⟨⟨nofun, fun h => absurd h hfull⟩, nofun, fun failure h => ?_⟩
      cases h
      exact ⟨⟨_, rfl, rfl⟩, hfront, rest, hrest⟩
  unrecognized table runners ht hr hm := by
    have hids := selection_of_unrecognized hm runners table
    exact ⟨hids, run_of_room ht hr hids (fits_empty around.room)⟩
  modeWarnings := by
    refine ⟨?_, ?_⟩
    · rintro ⟨hm, ⟨table, ht⟩, ⟨runners, hr⟩⟩
      rw [filter_events_of_reads ht hr, filter_modeWarnings_of_unrecognized hm]
    · intro h
      by_cases hl : (∃ table, Loads around settings table) ∧ ∃ runners, Reads around settings runners
      · obtain ⟨⟨table, ht⟩, ⟨runners, hr⟩⟩ := hl
        rw [filter_events_of_reads ht hr]
        exact filter_modeWarnings_of_recognized fun hm => h ⟨hm, ⟨table, ht⟩, ⟨runners, hr⟩⟩
      · exact filter_events_of_not_reads hl

end BuildFleet.Run
