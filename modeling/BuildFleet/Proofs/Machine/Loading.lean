import BuildFleet.Machine.Loading
import BuildFleet.Proofs.Json.Failing
import BuildFleet.Proofs.Machine.Reading

/-!
# Machines — tables that are not loaded

A table fails to load from a file in three ways: the file is not opened, it is read to its end and is
no table, or it cannot be read to its end.

* `Table.read_failingAfter`: a table is never read from a stream that fails.
* `Table.load_failure`: only a file that is not opened is said to be unreadable.  A file that is opened
  and then fails to be read is an invalid table, as one is that holds no table.
* `Table.load_directory`: so is a directory.
-/

namespace BuildFleet
open Json

theorem Machine.record_persists : Machine.record.Persists := by
  intro field hf
  simp only [Machine.record, List.mem_cons, List.not_mem_nil, or_false] at hf
  rcases hf with rfl | rfl
  · exact Reader.string_persists.map fun name (m : PartialMachine) => { m with name := some name }
  · exact Reader.string_persists.map fun id (m : PartialMachine) => { m with id := some id }

namespace Table

theorem reader_persists : Machine.record.reader.list.Persists :=
  Reader.list_persists (Record.reader_persists Machine.record_persists)

variable {files : Files} {path : String} {input : Input}

/-! ### The input behind a path -/

theorem load_of_error {error : SystemError} (h : files path = .error error) :
    load files path = .fail (.tableUnreadable path error) := by
  rw [load, h]

theorem load_outcome_of_ok (h : files path = .ok input) :
    (load files path).outcome = (read input).outcome := by
  rw [load, h]
  rfl

theorem read_outcome_of_parse {e : Json.Error} :
    (read input).outcome = .error (.invalidTable e) ↔
      Machine.record.reader.list.parse input = .error e := by
  cases h : Machine.record.reader.list.parse input with
  | error error => simp [read_of_error h, Attempt.fail, Attempt.ofExcept]
  | ok machines => simp [read_of_ok h]

/-- An input that is not read is an invalid table. -/
theorem exists_invalidTable {failure : Failure} (h : (read input).outcome = .error failure) :
    ∃ e, failure = .invalidTable e := by
  cases hp : Machine.record.reader.list.parse input with
  | error error =>
    rw [read_of_error hp] at h
    cases h
    exact ⟨error, rfl⟩
  | ok machines =>
    rw [read_of_ok hp] at h
    cases h

/-- An input that ends is a table or an invalid one, by its bytes alone. -/
theorem invalid_iff_of_closed (h : input.ending = .closed) :
    (∃ e, (read input).outcome = .error (.invalidTable e)) ↔ ∀ t, ¬ WellShaped t input.bytes := by
  have hshape : ∀ t, WellShaped t input.bytes ↔
      Machine.record.reader.list.parse input = .ok t.machines := by
    intro t
    rw [Reader.parse_eq_ok_iff, h]
    exact reader_reads.readAll_eq_ok_iff.symm
  simp only [read_outcome_of_parse, hshape]
  cases hp : Machine.record.reader.list.parse input with
  | error e => simp
  | ok machines => simpa using ⟨⟨machines⟩, rfl⟩

/-- A table is never read from a stream that fails: what is found wrong is the failure, or what is found
wrong with the bytes in front of it. -/
theorem read_failingAfter (bytes : Bytes) (error : SystemError) :
    ∃ e, (read (.failingAfter bytes error)).outcome = .error (.invalidTable e) ∧
      (e.cause = .io error ∨ ∀ t, ¬ WellShaped t bytes) := by
  obtain ⟨e, he, hcause⟩ := reader_persists.parse_failingAfter bytes error
  refine ⟨e, read_outcome_of_parse.mpr he, hcause.imp_right fun hclosed => ?_⟩
  exact (invalid_iff_of_closed rfl).mp ⟨e, read_outcome_of_parse.mpr hclosed⟩

theorem invalid_of_failing {error : SystemError} (h : input.ending = .failing error) :
    ∃ e, (read input).outcome = .error (.invalidTable e) := by
  obtain ⟨fault, hf, -⟩ := reader_persists.readAll_failing error input.bytes
  exact ⟨_, read_outcome_of_parse.mpr (Reader.parse_of_error (h ▸ hf))⟩

/-! ### The table built in -/

/-- The machines that are known without a table. -/
def builtinMachines : List Machine :=
  [⟨"Ternoa-Build-Machine-0", "14930b12-a780-4dd0-a131-069f5d6024bd"⟩,
   ⟨"Ternoa-Build-Machine-1", "bd7c96b0-bbb6-4796-977a-703256554787"⟩,
   ⟨"Ternoa-Build-Machine-2", "a1a60d32-19ce-47ee-8f40-635a925ba11d"⟩]

/-- The text built in is a table, and nothing about it is worth a warning. -/
theorem builtin_eq : builtin = ⟨[], "", .ok ⟨builtinMachines⟩⟩ := by
  have hparse : Machine.record.reader.list.parse (.ofString builtinText) = .ok builtinMachines :=
    Reader.parse_eq_ok_iff.mpr (by decide +kernel)
  have hwarnings : warnings ⟨builtinMachines⟩ = [] := by decide +kernel
  rw [builtin, read, hparse]
  dsimp only
  rw [hwarnings]
  rfl

/-! ### Loading -/

/-- **A table that fails to load** is said to be unreadable, by its path and the failure, exactly if its
file is not opened.  It is said to be invalid if its file holds no table, but also if the file is opened
and then fails to be read, even behind a whole table. -/
theorem load_failure (files : Files) (path : String) :
    (∀ named error, (load files path).outcome = .error (.tableUnreadable named error) ↔
      named = path ∧ files path = .error error) ∧
    ((∃ e, (load files path).outcome = .error (.invalidTable e)) ↔
      ∃ input, files path = .ok input ∧
        (input.ending = .closed → ∀ t, ¬ WellShaped t input.bytes)) ∧
    ∀ bytes error, files path = .ok (.failingAfter bytes error) →
      ∃ e, (load files path).outcome = .error (.invalidTable e) ∧
        (e.cause = .io error ∨ ∀ t, ¬ WellShaped t bytes) := by
  cases h : files path with
  | error error =>
    rw [load_of_error h]
    refine ⟨fun named error' => ⟨fun hf => ?_, fun ⟨hn, he⟩ => ?_⟩, ?_, by simp⟩
    · cases hf
      exact ⟨rfl, rfl⟩
    · cases he
      rw [hn]
      rfl
    · refine iff_of_false ?_ (by simp)
      rintro ⟨e, he⟩
      cases he
  | ok input =>
    rw [load_outcome_of_ok h]
    refine ⟨fun named error => ?_, ?_, fun bytes error hi => ?_⟩
    · refine iff_of_false (fun hf => ?_) (by simp)
      obtain ⟨e, he⟩ := exists_invalidTable hf
      cases he
    · cases hending : input.ending with
      | closed => simp [invalid_iff_of_closed hending, hending]
      | failing error => simp [invalid_of_failing hending, hending]
    · cases hi
      exact read_failingAfter bytes error

/-- The bytes `[]` are a whole table, but with a failure behind them an invalid one. -/
theorem load_failure_behind_table :
    WellShaped ⟨[]⟩ [openBracket, closeBracket] ∧
      ∃ e, (load (fun _ => .ok (.failingAfter [openBracket, closeBracket] (.unknown 5)))
        "machines.json").outcome = .error (.invalidTable e) ∧ e.cause = .io (.unknown 5) := by
  have htable : WellShaped ⟨[]⟩ [openBracket, closeBracket] :=
    ⟨[], _, [], blanks_nil, .none blanks_nil, blanks_nil, rfl⟩
  obtain ⟨e, he, hcause⟩ := (load_failure
    (fun _ => .ok (.failingAfter [openBracket, closeBracket] (.unknown 5))) "machines.json").2.2 _ _ rfl
  exact ⟨htable, e, he, hcause.resolve_right fun h => h _ htable⟩

/-- A directory is opened, but reading from it fails. -/
theorem load_directory {tree : FileTree} (h : tree.resolve path = .ok .directory) :
    load tree.files path =
      ⟨[.tableOpened path], "", .error (.invalidTable ⟨.io .isADirectory, none⟩)⟩ := by
  rw [load, FileTree.files, h]
  rfl

/-- A directory in place of a file is not said to be unreadable. -/
theorem directory_not_unreadable :
    let files := FileTree.files ⟨[(["machines"], .directory)], []⟩
    files "machines" = .ok (.failingAfter [] .isADirectory) ∧
      (load files "machines").outcome = .error (.invalidTable ⟨.io .isADirectory, none⟩) ∧
      ∀ named error, (load files "machines").outcome ≠ .error (.tableUnreadable named error) := by
  intro files
  have hresolve : FileTree.resolve ⟨[(["machines"], .directory)], []⟩ "machines" = .ok .directory := by
    decide
  have hload := congrArg Attempt.outcome (load_directory hresolve)
  refine ⟨?_, hload, fun named error h => ?_⟩
  · show (FileTree.resolve _ _).map _ = _
    rw [hresolve]
    rfl
  · cases h.symm.trans hload

end Table

end BuildFleet
