import BuildFleet.Proofs.CommandLine.Override
import BuildFleet.Proofs.Process

/-!
# Processes — what the exit code and the standard output depend on

A process depends on the words, on the variables of the options that these do not name, and on the
inputs that its settings name (`Invocation.Dependence`).

* The log filter makes no difference unless it is torn.  A torn one breaks the process down, where any
  other malformed one gives way to the default filter; 101 is the exit code of such a process and of no
  other (`Invocation.exitCode_eq_101_iff`).
* The variable of an option that is named makes none, unless the help text is asked for, which shows it.
* The standard input makes none if the listing comes from a file, and neither do files that are not
  opened (`run_congr`).  A file through which a system hands out the standard input is one of its files.
-/

namespace BuildFleet
open CommandLine (AsksFor Names ValueOption)

/-- The filter of the variable is not torn. -/
def LogFilter.Whole (held : Option String) : Prop :=
  ∃ filter, ofVariable? held = some filter

/-- What the exit code and the standard output of a process depend on. -/
structure Invocation.Dependence (i : Invocation) : Prop where
  /-- Of the log filter, on nothing but whether it is torn. -/
  log : ∀ log : Option String, (LogFilter.Whole log ↔ LogFilter.Whole i.log) →
    { i with log }.outcome.exitCode = i.outcome.exitCode ∧
      { i with log }.outcome.stdout = i.outcome.stdout
  /-- Not on the variable of an option that is named, unless the words ask for help. -/
  override : ∀ (option : ValueOption) (held : Option String), Names option i.words →
    ¬ AsksFor .help i.words →
    { i with environment := option.hold held i.environment }.outcome = i.outcome
  /-- They only do that with a flag for it. -/
  asked : AsksFor .help i.words → ∃ word ∈ i.words, CommandLine.Flag.help.IsWord word
  /-- Not on the standard input and the files that are not opened, if the listing is in a file. -/
  unread : ∀ (args : Arguments) (path : String), CommandLine.read i.environment i.words = .ok args →
    args.input = some path → path ≠ "-" → ∀ (stdin : Json.Input) (files : Files),
    files path = i.files path → (∀ machines ∈ args.machines, files machines = i.files machines) →
    { i with stdin, files }.outcome = i.outcome
  /-- Nothing is written with an exit code that is not zero. -/
  failed : i.outcome.exitCode ≠ 0 →
    i.outcome.stdout = "" ∧ (i.outcome.exitCode = 1 ∨ i.outcome.exitCode = 101)
  broken : i.outcome.exitCode = 101 ↔ ¬ LogFilter.Whole i.log
  /-- A filter is not torn that is not set, or in which every character is one byte. -/
  unbroken : (∀ text ∈ i.log, LogFilter.OneByteEach text.toList) → i.outcome.exitCode ≠ 101

/-! ### Runs -/

/-- A run depends on the inputs that its settings name. -/
theorem run_congr {around around' : Surroundings} {settings : Settings}
    (hroom : around.room = around'.room)
    (hmachines : ∀ path, settings.machines = .file path → around.files path = around'.files path)
    (hinput : Run.opened around settings = Run.opened around' settings) :
    run around settings = run around' settings := by
  have htable : settings.machines.load around.files = settings.machines.load around'.files := by
    cases hm : settings.machines with
    | builtin => rfl
    | file path => simp only [TableSource.load, Table.load, hmachines path hm]
  have hlisting : Run.readListing around settings = Run.readListing around' settings := by
    cases ho : Run.opened around settings with
    | ok input =>
      rw [Run.readListing_of_opened ho, Run.readListing_of_opened (hinput ▸ ho)]
    | error error =>
      obtain ⟨path, hs, hr⟩ := Run.readListing_of_not_opened ho
      obtain ⟨path', hs', hr'⟩ := Run.readListing_of_not_opened (hinput ▸ ho)
      cases hs.symm.trans hs'
      rw [hr, hr']
  have hwrite : Run.write around = Run.write around' := by
    funext ids
    simp only [Run.write, hroom]
  simp only [run, Run.loadTable, htable, hlisting, hwrite]

theorem Arguments.settings_machines {args : Arguments} {settings : Settings}
    (h : args.settings = .ok settings) :
    settings.machines = args.machines.elim .builtin .file := by
  obtain ⟨_ | mode, machines, input⟩ := args <;> cases h
  rfl

theorem Arguments.settings_input {args : Arguments} {settings : Settings} {path : String}
    (h : args.settings = .ok settings) (hi : args.input = some path) (hp : path ≠ "-") :
    settings.input = .file path := by
  obtain ⟨_ | mode, machines, input⟩ := args <;> cases h
  cases hi
  exact if_neg hp

namespace Invocation
variable {i : Invocation} {filter : LogFilter}

/-! ### Processes -/

theorem outcome_of_whole (h : LogFilter.ofVariable? i.log = some filter) :
    i.outcome = i.outcomeWith filter := by
  rw [outcome, h]

theorem outcome_of_torn (h : ¬ LogFilter.Whole i.log) : i.outcome = brokenDown := by
  cases hf : LogFilter.ofVariable? i.log with
  | none => rw [outcome, hf]
  | some filter => exact absurd ⟨filter, hf⟩ h

theorem unwritten_runArguments {args : Arguments} {failure : RunFailure}
    (h : (i.runArguments args).outcome = .error failure) : (i.runArguments args).Unwritten := by
  cases hs : args.settings with
  | error cause =>
    rw [runArguments, Attempt.bind_of_error (by rw [hs]; rfl)]
    rfl
  | ok settings =>
    rw [runArguments_of_ok hs] at h ⊢
    exact Run.unwritten_of_error h (Run.outcome_ne_writing rfl h)

/-- A process has the exit codes zero and one, and writes nothing if it has one. -/
theorem outcomeWith_exitCode (i : Invocation) (filter : LogFilter) :
    (i.outcomeWith filter).exitCode = 0 ∨
      (i.outcomeWith filter).exitCode = 1 ∧ (i.outcomeWith filter).stdout = "" := by
  cases hread : CommandLine.read i.environment i.words with
  | error stop =>
    cases stop with
    | asked flag => exact .inl (by simp only [outcomeWith, hread])
    | wrong error => exact .inr (by simp only [outcomeWith, hread, and_self])
  | ok args =>
    cases hrun : (i.runArguments args).outcome with
    | ok => exact .inl (by simp only [outcomeWith, hread, hrun])
    | error failure =>
      have hempty : (i.runArguments args).output = "" := unwritten_runArguments hrun
      exact .inr (by simp only [outcomeWith, hread, hrun, hempty, and_self])

theorem exitCode_eq_101_iff : i.outcome.exitCode = 101 ↔ ¬ LogFilter.Whole i.log := by
  refine ⟨fun h hw => ?_, fun hw => by rw [outcome_of_torn hw]; rfl⟩
  obtain ⟨filter, hf⟩ := hw
  rw [outcome_of_whole hf] at h
  rcases i.outcomeWith_exitCode filter with hexit | ⟨hexit, -⟩
  · cases hexit.symm.trans h
  · cases hexit.symm.trans h

/-- The filter tells what is said on the side. -/
theorem outcomeWith_congr (i : Invocation) (filter filter' : LogFilter) :
    (i.outcomeWith filter).exitCode = (i.outcomeWith filter').exitCode ∧
      (i.outcomeWith filter).stdout = (i.outcomeWith filter').stdout := by
  cases hread : CommandLine.read i.environment i.words with
  | error stop => cases stop <;> simp only [outcomeWith, hread, and_self]
  | ok args =>
    cases hrun : (i.runArguments args).outcome <;> simp only [outcomeWith, hread, hrun, and_self]

theorem outcomeWith_hold {option : ValueOption} {held : Option String} (hn : Names option i.words)
    (hh : ¬ AsksFor .help i.words) :
    { i with environment := option.hold held i.environment }.outcomeWith filter =
      i.outcomeWith filter := by
  have hsame := CommandLine.read_hold hn held i.environment
  cases hread : CommandLine.read i.environment i.words with
  | error stop =>
    cases stop with
    | asked flag =>
      cases flag with
      | help => exact absurd (CommandLine.read_eq_asked_iff.mp hread) hh
      | version =>
        simp only [outcomeWith, hsame, hread]
        rfl
    | wrong error => simp only [outcomeWith, hsame, hread]
  | ok args =>
    simp only [outcomeWith, hsame, hread]
    rfl

theorem runArguments_congr {args : Arguments} {path : String} (hi : args.input = some path)
    (hp : path ≠ "-") (stdin : Json.Input) {files : Files} (hpath : files path = i.files path)
    (hmachines : ∀ machines ∈ args.machines, files machines = i.files machines) :
    { i with stdin, files }.runArguments args = i.runArguments args := by
  cases hs : args.settings with
  | error cause => simp only [runArguments, hs]; rfl
  | ok settings =>
    have hrun : run { i with stdin, files }.around settings = run i.around settings := by
      refine run_congr rfl (fun table htable => ?_) ?_
      · rw [Arguments.settings_machines hs] at htable
        cases hm : args.machines with
        | none =>
          rw [hm] at htable
          cases htable
        | some _ =>
          rw [hm] at htable
          cases htable
          exact hmachines table hm
      · simp only [Run.opened, Arguments.settings_input hs hi hp]
        exact hpath
    rw [runArguments_of_ok hs, runArguments_of_ok hs, events, events, hrun]

end Invocation

/-- **What a process depends on.** -/
theorem process_dependence (i : Invocation) : i.Dependence where
  log log h := by
    by_cases hw : LogFilter.Whole i.log
    · obtain ⟨filter, hf⟩ := hw
      obtain ⟨filter', hf'⟩ := h.mpr ⟨filter, hf⟩
      rw [Invocation.outcome_of_whole hf, Invocation.outcome_of_whole (i := { i with log }) hf']
      exact Invocation.outcomeWith_congr i filter' filter
    · rw [Invocation.outcome_of_torn hw, Invocation.outcome_of_torn (i := { i with log }) (mt h.mp hw)]
      exact ⟨rfl, rfl⟩
  override option held hn hh := by
    unfold Invocation.outcome
    cases LogFilter.ofVariable? i.log with
    | none => rfl
    | some filter => exact Invocation.outcomeWith_hold hn hh
  asked h := h.exists_word
  unread args path hread hi hp stdin files hpath hmachines := by
    have hrun := Invocation.runArguments_congr hi hp stdin hpath hmachines
    simp only [Invocation.outcome, Invocation.outcomeWith, hread, hrun]
  failed h := by
    by_cases hw : LogFilter.Whole i.log
    · obtain ⟨filter, hf⟩ := hw
      rw [Invocation.outcome_of_whole hf] at h ⊢
      rcases i.outcomeWith_exitCode filter with hexit | ⟨hexit, hempty⟩
      · exact absurd hexit h
      · exact ⟨hempty, .inl hexit⟩
    · rw [Invocation.outcome_of_torn hw]
      exact ⟨rfl, .inr rfl⟩
  broken := Invocation.exitCode_eq_101_iff
  unbroken h hexit := Invocation.exitCode_eq_101_iff.mp hexit (LogFilter.exists_ofVariable? h)

/-- A directive with a blank in front of a character of two bytes is torn.  Without a filter, and with
one that is malformed otherwise, the same process finds what it looks for. -/
theorem torn_filter_breaks_down :
    let i : Invocation :=
      { words := ["ONLINE"], log := some " é=warn"
        stdin := .ofBytes (Text.Utf8.encode
          "\x7b\"runners\":[\x7b\"name\":\"Ternoa-Build-Machine-0\",\"status\":\"online\"\x7d]\x7d")
        files := fun _ => .error .notFound }
    i.outcome = ⟨101, "", []⟩ ∧
      { i with log := none }.outcome = ⟨0, "14930b12-a780-4dd0-a131-069f5d6024bd\n", []⟩ ∧
      { i with log := some "=" }.outcome = ⟨0, "14930b12-a780-4dd0-a131-069f5d6024bd\n", []⟩ := by
  intro i
  have hlisting : (Listing.read i.stdin).outcome =
      .ok [{ name := some "Ternoa-Build-Machine-0", status := some .online }] := by decide +kernel
  have hids : selection .online [{ name := some "Ternoa-Build-Machine-0", status := some .online }]
      ⟨Table.builtinMachines⟩ = .ok ["14930b12-a780-4dd0-a131-069f5d6024bd"] := by decide +kernel
  have hmalformed : LogFilter.ofVariable? (some "=") = some .default := by decide +kernel
  refine ⟨by decide +kernel, ?_, ?_⟩
  · exact (Invocation.outcome_builtin (i := { i with log := none }) rfl rfl rfl hlisting hids).trans
      (by decide +kernel)
  · exact (Invocation.outcome_builtin (i := { i with log := some "=" }) hmalformed rfl rfl hlisting
      hids).trans (by decide +kernel)

end BuildFleet
