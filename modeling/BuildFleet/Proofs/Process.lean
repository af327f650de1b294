import BuildFleet.Proofs.CommandLine
import BuildFleet.Proofs.LogFilter
import BuildFleet.Proofs.Machine.Loading
import BuildFleet.Proofs.Run
import BuildFleet.Process

/-!
# Processes — what a process leaves behind

A process whose words are understood leaves behind what the run of its arguments comes to: the text that
the run has written, and zero, or one and the failure.  The log filter tells which events are shown, and
makes no other difference, unless it is torn.

* `Invocation.outcome_of_done`, `Invocation.outcome_of_failed`: the outcome of a process by that of its
  run.
* `process_refines_run`: arguments that are handed over, in any way, make a process what a run of them
  is, unless the log filter is torn (`torn_filter_not_refined`).
* `mode_unflagged`: a process with a mode that is not recognized ends well and writes nothing; but the
  warning about the mode is only shown if the log filter lets it through, and by default it does not.
-/

namespace BuildFleet
open CommandLine (Handed)

namespace Invocation

/-- What the run of a process finds around it. -/
def around (i : Invocation) : Surroundings :=
  { files := i.files, stdin := i.stdin }

/-- The events of a run of these settings, with the settings told first. -/
def events (i : Invocation) (settings : Settings) : List Event :=
  .configured settings :: (run i.around settings).events

/-- The events that the filter shows. -/
def shown (filter : LogFilter) (events : List Event) : List Diagnostic :=
  (events.filter filter.shows).map .logged

variable {i : Invocation} {args : Arguments} {settings : Settings} {filter : LogFilter}

theorem mem_shown_iff {event : Event} {events : List Event} :
    .logged event ∈ shown filter events ↔ event ∈ events ∧ filter.shows event = true := by
  simp [shown]

/-! ### The outcome by the arguments -/

theorem runArguments_of_ok (h : args.settings = .ok settings) :
    i.runArguments args =
      ⟨i.events settings, (run i.around settings).output, (run i.around settings).outcome⟩ := by
  rw [runArguments, h, Attempt.bind_of_ok (v := settings) rfl, Attempt.bind_of_ok (v := ()) rfl]
  simp [Attempt.ofExcept, Attempt.log, events, around]

/-- Arguments that are no settings are all that a process tells of. -/
theorem outcome_of_no_settings {failure : Failure} (hf : LogFilter.ofVariable? i.log = some filter)
    (hread : CommandLine.read i.environment i.words = .ok args)
    (h : args.settings = .error failure) :
    i.outcome = ⟨1, "", [.failed (.arguments failure)]⟩ := by
  rw [outcome, hf]
  simp only [outcomeWith, hread, runArguments, h]
  rfl

theorem outcome_of_done (hf : LogFilter.ofVariable? i.log = some filter)
    (hread : CommandLine.read i.environment i.words = .ok args) (h : args.settings = .ok settings)
    (hrun : (run i.around settings).outcome = .ok ()) :
    i.outcome = ⟨0, (run i.around settings).output, shown filter (i.events settings)⟩ := by
  rw [outcome, hf]
  simp only [outcomeWith, hread, runArguments_of_ok h, hrun]
  rfl

theorem outcome_of_failed {failure : RunFailure} (hf : LogFilter.ofVariable? i.log = some filter)
    (hread : CommandLine.read i.environment i.words = .ok args) (h : args.settings = .ok settings)
    (hrun : (run i.around settings).outcome = .error failure) :
    i.outcome = ⟨1, "", shown filter (i.events settings) ++ [.failed failure]⟩ := by
  have hempty : (run i.around settings).output = "" :=
    Run.unwritten_of_error hrun (Run.outcome_ne_writing rfl hrun)
  rw [outcome, hf]
  simp only [outcomeWith, hread, runArguments_of_ok h, hrun, hempty]
  rfl

/-! ### Runs on the table built in -/

/-- The table built in is there, whatever the files are. -/
theorem loads_builtin (mode : Mode) (source : ListingSource) :
    Run.Loads i.around ⟨mode, .builtin, source⟩ ⟨Table.builtinMachines⟩ :=
  congrArg Attempt.outcome Table.builtin_eq

theorem run_builtin {mode : Mode} {runners : List Runner} {ids : List String}
    (hr : (Listing.read i.stdin).outcome = .ok runners)
    (hids : selection mode runners ⟨Table.builtinMachines⟩ = .ok ids) :
    run i.around ⟨mode, .builtin, .stdin⟩ =
      ⟨.tableLoaded 3 :: .listingParsed runners.length ::
          (Run.modeWarnings mode ++ [.selected mode ids.length runners.length]), lines ids, .ok ()⟩ := by
  have hevents : (TableSource.builtin.load i.around.files).events = [] :=
    congrArg Attempt.events Table.builtin_eq
  rw [Run.run_of_unlimited (loads_builtin mode .stdin) ⟨i.stdin, rfl, hr⟩ hids rfl, hevents]
  rfl

/-- With the table built in and a listing from the standard input, only the listing can be at fault. -/
theorem outcome_builtin {mode : Mode} {runners : List Runner} {ids : List String}
    (hf : LogFilter.ofVariable? i.log = some filter)
    (hread : CommandLine.read i.environment i.words = .ok args)
    (h : args.settings = .ok ⟨mode, .builtin, .stdin⟩)
    (hr : (Listing.read i.stdin).outcome = .ok runners)
    (hids : selection mode runners ⟨Table.builtinMachines⟩ = .ok ids) :
    i.outcome = ⟨0, lines ids, shown filter (.configured ⟨mode, .builtin, .stdin⟩ :: .tableLoaded 3 ::
      .listingParsed runners.length ::
        (Run.modeWarnings mode ++ [.selected mode ids.length runners.length]))⟩ := by
  have hrun := run_builtin hr hids
  rw [outcome_of_done hf hread h (congrArg Attempt.outcome hrun), events, hrun]

end Invocation

/-! ### Processes and runs -/

/-- The run of the arguments succeeds, and has written this text. -/
def Invocation.Writes (i : Invocation) (args : Arguments) (text : String) : Prop :=
  ∃ settings, args.settings = .ok settings ∧ (run i.around settings).outcome = .ok () ∧
    (run i.around settings).output = text

/-- The arguments are no settings, or the run of their settings fails, after these events. -/
inductive Invocation.Fails (i : Invocation) (args : Arguments) : List Event → RunFailure → Prop where
  | arguments {failure : Failure} : args.settings = .error failure → Fails i args [] (.arguments failure)
  | run {settings : Settings} {failure : RunFailure} : args.settings = .ok settings →
      (run i.around settings).outcome = .error failure → Fails i args (i.events settings) failure

/-- A process leaves behind what the run of the arguments comes to. -/
structure Refines (i : Invocation) (filter : LogFilter) (args : Arguments) : Prop where
  /-- It ends well, with a text, exactly if the run has written that text. -/
  success : ∀ text, (i.outcome.exitCode = 0 ∧ i.outcome.stdout = text) ↔ i.Writes args text
  /-- Otherwise it ends with one and no text, and its last diagnostic is the failure. -/
  failure : (∀ text, ¬ i.Writes args text) → i.outcome.exitCode = 1 ∧ i.outcome.stdout = "" ∧
    ∃ events failure, i.Fails args events failure ∧
      i.outcome.diagnostics = Invocation.shown filter events ++ [.failed failure] ∧
      (Diagnostic.failed failure).text = "error: " ++ ": ".intercalate failure.chain

theorem error_text (failure : RunFailure) :
    (Diagnostic.failed failure).text = "error: " ++ ": ".intercalate failure.chain :=
  rfl

/-- Arguments with which a process fails do not make it write a text as well. -/
theorem Invocation.Fails.not_writes {i : Invocation} {args : Arguments} {events : List Event}
    {failure : RunFailure} (h : i.Fails args events failure) (text : String) :
    ¬ i.Writes args text := by
  rintro ⟨settings, hs, hrun, -⟩
  cases h with
  | arguments hs' => cases hs.symm.trans hs'
  | run hs' hrun' =>
    cases hs.symm.trans hs'
    cases hrun.symm.trans hrun'

theorem Invocation.Fails.refines {i : Invocation} {args : Arguments} {filter : LogFilter}
    {events : List Event} {failure : RunFailure} (h : i.Fails args events failure)
    (hout : i.outcome = ⟨1, "", Invocation.shown filter events ++ [.failed failure]⟩) :
    Refines i filter args := by
  refine ⟨fun text => iff_of_false ?_ (h.not_writes text), fun _ => ?_⟩
  · simp [hout]
  · rw [hout]
    exact ⟨rfl, rfl, events, failure, h, rfl, error_text failure⟩

/-- **A process is what a run of its arguments is**, in whichever way they are handed over.  The log
filter is not torn if it is not set, nor if every character of it is one byte
(`LogFilter.exists_ofVariable?`). -/
theorem process_refines_run {i : Invocation} {args : Arguments} {filter : LogFilter}
    (h : Handed args i.environment i.words) (hf : LogFilter.ofVariable? i.log = some filter) :
    Refines i filter args := by
  have hread := CommandLine.read_of_handed h
  cases hs : args.settings with
  | error failure =>
    exact (Invocation.Fails.arguments hs).refines (Invocation.outcome_of_no_settings hf hread hs)
  | ok settings =>
    cases hrun : (run i.around settings).outcome with
    | error failure =>
      exact (Invocation.Fails.run hs hrun).refines (Invocation.outcome_of_failed hf hread hs hrun)
    | ok =>
      have hout := Invocation.outcome_of_done hf hread hs hrun
      refine ⟨fun text => ?_, fun hno => absurd ⟨settings, hs, hrun, rfl⟩ (hno _)⟩
      rw [hout]
      refine ⟨fun hexit => ⟨settings, hs, hrun, hexit.2⟩, ?_⟩
      rintro ⟨settings', hs', -, rfl⟩
      cases hs.symm.trans hs'
      exact ⟨rfl, rfl⟩

/-- Words that hand over a mode, a table by a variable and a listing by two words, and words without a
mode. -/
theorem process_refines_offline :
    let i : Invocation :=
      { words := ["--input", "-", "OFFLINE"]
        environment := ⟨some "machines.json", some "unread.json"⟩
        log := some "debug"
        stdin := .ofBytes (Text.Utf8.encode
          "\x7b\"runners\":[\x7b\"name\":\"a\",\"status\":\"offline\"\x7d]\x7d")
        files := fun path =>
          if path = "machines.json" then .ok (.ofBytes (Text.Utf8.encode "[[\"a\",\"1\"]]"))
          else .error .notFound }
    let args : Arguments := ⟨some "OFFLINE", some "machines.json", some "-"⟩
    let i' : Invocation := { i with words := ["--machines=-"], log := none }
    let args' : Arguments := ⟨none, some "-", some "unread.json"⟩
    (Handed args i.environment i.words ∧
      LogFilter.ofVariable? i.log = some ⟨[{ threshold := 4 }]⟩ ∧ i.Writes args "1\n") ∧
    Handed args' i'.environment i'.words ∧ LogFilter.ofVariable? i'.log = some .default ∧
      i'.outcome.exitCode = 1 ∧ i'.outcome.stdout = "" := by
  intro i args i' args'
  have hhanded : Handed args i.environment i.words := by
    refine ⟨⟨some "OFFLINE", none, some "-"⟩, ⟨[.setting .input "-", .mode "OFFLINE"],
      [["--input", "-"], ["OFFLINE"]], .swap .., ?_, rfl⟩, rfl, fun option => ?_⟩
    · exact .cons (.next (by decide) (.inl rfl)) (.cons (.mode (.inr (by decide))) .nil)
    · cases option with
      | machines => exact .inVariable (by decide)
      | input => exact .onLine rfl
  have hlog : LogFilter.ofVariable? i.log = some ⟨[{ threshold := 4 }]⟩ := by decide +kernel
  have hhanded' : Handed args' i'.environment i'.words := by
    refine ⟨⟨none, some "-", none⟩, ⟨[.setting .machines "-"], [["--machines=-"]], .refl _, ?_, rfl⟩,
      rfl, fun option => ?_⟩
    · exact .cons (.equals (by decide)) .nil
    · cases option with
      | machines => exact .onLine rfl
      | input => exact .inVariable (by decide)
  have hno : ∀ text, ¬ i'.Writes args' text := by
    rintro text ⟨settings, hs, -⟩
    cases hs
  obtain ⟨hexit, hempty, -⟩ := (process_refines_run hhanded' rfl).failure hno
  refine ⟨⟨hhanded, hlog, ?_⟩, hhanded', rfl, hexit, hempty⟩
  exact ((process_refines_run hhanded hlog).success "1\n").mp (by decide +kernel)

/-- A torn log filter breaks the process down before it comes to the run that its words hand over. -/
theorem torn_filter_not_refined :
    let i : Invocation :=
      { words := ["ONLINE"], log := some " é=warn"
        stdin := .ofBytes (Text.Utf8.encode
          "\x7b\"runners\":[\x7b\"name\":\"Ternoa-Build-Machine-0\",\"status\":\"online\"\x7d]\x7d")
        files := fun _ => .error .notFound }
    let args : Arguments := ⟨some "ONLINE", none, none⟩
    Handed args i.environment i.words ∧
      i.Writes args "14930b12-a780-4dd0-a131-069f5d6024bd\n" ∧
      i.outcome.exitCode = 101 ∧ i.outcome.stdout = "" ∧ ∀ filter, ¬ Refines i filter args := by
  intro i args
  have hhanded : Handed args i.environment i.words := by
    refine ⟨args, ⟨[.mode "ONLINE"], [["ONLINE"]], .refl _, ?_, rfl⟩, rfl, fun option => ?_⟩
    · exact .cons (.mode (.inr (by decide))) .nil
    · cases option <;> exact .inVariable (by decide)
  have hlisting : (Listing.read i.stdin).outcome =
      .ok [{ name := some "Ternoa-Build-Machine-0", status := some .online }] := by decide +kernel
  have hids : selection .online [{ name := some "Ternoa-Build-Machine-0", status := some .online }]
      ⟨Table.builtinMachines⟩ = .ok ["14930b12-a780-4dd0-a131-069f5d6024bd"] := by decide +kernel
  have hrun := Invocation.run_builtin hlisting hids
  have hwrites : i.Writes args "14930b12-a780-4dd0-a131-069f5d6024bd\n" := by
    refine ⟨⟨.online, .builtin, .stdin⟩, rfl, congrArg Attempt.outcome hrun, ?_⟩
    rw [hrun]
    decide +kernel
  have hout : i.outcome = ⟨101, "", []⟩ := by decide +kernel
  refine ⟨hhanded, hwrites, by rw [hout], by rw [hout], fun filter h => ?_⟩
  have hexit := ((h.success _).mpr hwrites).1
  rw [hout] at hexit
  cases hexit

/-! ### Modes that are not recognized -/

theorem exists_ok_of_isSome {ε α : Type} {x : Except ε α} (h : x.toOption.isSome = true) :
    ∃ v, x = .ok v := by
  cases x with
  | error => cases h
  | ok v => exact ⟨v, rfl⟩

theorem Mode.ofText_of_not_mem {word : String}
    (h : word ∉ ["ONLINE_NBUSY", "ONLINE_BUSY", "ONLINE", "OFFLINE"]) :
    Mode.ofText word = .unrecognized word := by
  simp only [List.mem_cons, List.not_mem_nil, or_false, not_or] at h
  obtain ⟨hidle, hbusy, honline, hoffline⟩ := h
  simp [Mode.ofText, hidle, hbusy, honline, hoffline]

theorem Arguments.settings_mode {args : Arguments} {settings : Settings} {word : String}
    (h : args.settings = .ok settings) (hm : args.mode = some word) :
    settings.mode = Mode.ofText word := by
  rw [Arguments.settings, Arguments.settings?, hm] at h
  cases h
  rfl

/-- Of what is said about a table, the default filter shows the warnings. -/
theorem filter_shows_load (files : Files) (source : TableSource) :
    (source.load files).events.filter LogFilter.default.shows =
      (source.load files).events.filter fun e => e.level = .warn := by
  refine List.filter_congr fun e he => ?_
  have hmode : e.isModeWarning = false :=
    eq_false_of_ne_true (List.filter_eq_nil_iff.mp (TableSource.filter_events_load files source) e he)
  rw [Bool.eq_iff_iff, LogFilter.default_shows_iff, decide_eq_true_iff]
  exact ⟨fun h => h.1, fun h => ⟨h, hmode⟩⟩

/-- **A mode that is not recognized** makes a process end well that finds its table and its listing, and
write nothing.  Whether it warns about the mode is up to the log filter, and the default one shows
nothing but the warnings about the table. -/
theorem mode_unflagged {i : Invocation} {args : Arguments} {settings : Settings} {word : String}
    {table : Table} {runners : List Runner} {filter : LogFilter}
    (hread : CommandLine.read i.environment i.words = .ok args)
    (hmode : args.mode = some word)
    (hword : word ∉ ["ONLINE_NBUSY", "ONLINE_BUSY", "ONLINE", "OFFLINE"])
    (hs : args.settings = .ok settings) (ht : Run.Loads i.around settings table)
    (hr : Run.Reads i.around settings runners) (hf : LogFilter.ofVariable? i.log = some filter) :
    (i.outcome.exitCode = 0 ∧ i.outcome.stdout = "" ∧
      (.logged (.modeUnrecognized (.unrecognized word)) ∈ i.outcome.diagnostics ↔
        filter.shows (.modeUnrecognized (.unrecognized word)) = true)) ∧
    (i.log = none → i.outcome.diagnostics =
        ((settings.machines.load i.files).events.filter fun e => e.level = .warn).map .logged ∧
      .logged (.modeUnrecognized (.unrecognized word)) ∉ i.outcome.diagnostics) := by
  have hm : settings.mode = .unrecognized word :=
    (Arguments.settings_mode hs hmode).trans (Mode.ofText_of_not_mem hword)
  have hids : selection settings.mode runners table = .ok [] := by
    rw [hm]
    exact Run.selection_of_unrecognized rfl runners table
  have hrun := Run.run_of_unlimited ht hr hids rfl
  have hout := Invocation.outcome_of_done hf hread hs (congrArg Attempt.outcome hrun)
  have hwarned : .modeUnrecognized (.unrecognized word) ∈ i.events settings := by
    rw [Invocation.events, hrun, hm]
    simp [Run.modeWarnings, Mode.isRecognized]
  refine ⟨?_, fun hlog => ?_⟩
  · rw [hout, hrun, Invocation.mem_shown_iff]
    exact ⟨rfl, rfl, fun h => h.2, fun h => ⟨hwarned, h⟩⟩
  · rw [hlog] at hf
    obtain rfl : LogFilter.default = filter := Option.some.inj hf
    refine ⟨?_, ?_⟩
    · rw [hout, Invocation.shown, Invocation.events, hrun, hm, ← filter_shows_load]
      simp [Run.modeWarnings, Mode.isRecognized, LogFilter.default_shows_iff, Event.level,
        Event.isModeWarning, Invocation.around]
    · rw [hout, Invocation.mem_shown_iff, LogFilter.default_shows_iff]
      rintro ⟨-, -, h⟩
      cases h

/-- A mode of that kind, the table built in, and a listing of one runner of which nothing is known: the
warning is shown if the filter is about the part that it comes from. -/
theorem mode_flagged_if_asked :
    let i : Invocation :=
      { words := ["BOGUS"], stdin := .ofBytes (Text.Utf8.encode "[[\x7b\x7d]]")
        files := fun _ => .error .notFound }
    let i' : Invocation := { i with log := some "read_scw_machines=warn" }
    .logged (.modeUnrecognized (.unrecognized "BOGUS")) ∉ i.outcome.diagnostics ∧
      .logged (.modeUnrecognized (.unrecognized "BOGUS")) ∈ i'.outcome.diagnostics := by
  intro i i'
  have hword : "BOGUS" ∉ ["ONLINE_NBUSY", "ONLINE_BUSY", "ONLINE", "OFFLINE"] := by decide
  have ht := Invocation.loads_builtin (i := i) (.unrecognized "BOGUS") .stdin
  obtain ⟨runners, hread⟩ : ∃ runners, (Listing.read i.stdin).outcome = .ok runners :=
    exists_ok_of_isSome (by decide +kernel)
  have hr : Run.Reads i.around ⟨.unrecognized "BOGUS", .builtin, .stdin⟩ runners := ⟨_, rfl, hread⟩
  have hlog : LogFilter.ofVariable? i'.log =
      some ⟨[{ threshold := 2, target := some "read_scw_machines" }]⟩ := by decide +kernel
  obtain ⟨-, hdefault⟩ := mode_unflagged (i := i) rfl rfl hword rfl ht hr rfl
  obtain ⟨⟨-, -, hshown⟩, -⟩ := mode_unflagged (i := i') rfl rfl hword rfl ht hr hlog
  exact ⟨(hdefault rfl).2, hshown.mpr (by decide)⟩

/-- By default nothing at all is said of it. -/
theorem bogus_mode_silent :
    let i : Invocation :=
      { words := ["BOGUS"], stdin := .ofBytes (Text.Utf8.encode "[[\x7b\x7d]]")
        files := fun _ => .error .notFound }
    i.log = none ∧ CommandLine.read i.environment i.words = .ok ⟨some "BOGUS", none, none⟩ ∧
      (∃ table, Run.Loads i.around ⟨.unrecognized "BOGUS", .builtin, .stdin⟩ table) ∧
      (∃ runners, Run.Reads i.around ⟨.unrecognized "BOGUS", .builtin, .stdin⟩ runners) ∧
      i.outcome = ⟨0, "", []⟩ := by
  intro i
  have hlisting : (Listing.read i.stdin).outcome = .ok [{}] := by decide +kernel
  refine ⟨rfl, rfl, ⟨_, Invocation.loads_builtin _ _⟩, ⟨[{}], _, rfl, hlisting⟩, ?_⟩
  have hids : selection (.unrecognized "BOGUS") [{}] ⟨Table.builtinMachines⟩ = .ok [] := by decide +kernel
  rw [Invocation.outcome_builtin rfl rfl rfl hlisting hids]
  decide +kernel

end BuildFleet
