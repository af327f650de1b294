import BuildFleet.Proofs.Json.Naming
import BuildFleet.Proofs.Machine.Loading
import BuildFleet.Proofs.Process.Dependence
import BuildFleet.Proofs.Text.Control

/-!
# Failures — each on its line

What a failure says is on one line, whatever the inputs held.  It says it in words of its own, with numbers,
with quotations of what was found, and with names; and only a name could carry a control character.

A failure names the records that are read and their fields, the argument that is missing, and a file by its
path (`Failure.NamesOnly`).  The first three are known beforehand (`vocabulary`), and the paths are those of
the settings.  Nothing of what the inputs hold is a name.

* `RunFailure.controlFree_message`: names without control characters give a message without them.
* `Run.namesOnly`: the names in the failure of a run are of the vocabulary, or paths of its settings.
* `failure_on_one_line`: so the message of a run that fails has no control character if these paths have
  none, and neither has the error line of a process.
-/

namespace BuildFleet
open Text (ControlFree controlFree_append controlFree_ofList controlFree_toString)

/-! ### Names -/

/-- The names of the records that are read, of their fields, and of the argument that is required. -/
def vocabulary : List String :=
  [Machine.record.name, Runner.record.name, Listing.record.name, "MODE"] ++
    Machine.record.fields.map (·.key) ++ Runner.record.fields.map (·.key) ++
    Listing.record.fields.map (·.key)

theorem controlFree_vocabulary : ∀ word ∈ vocabulary, ControlFree word := by
  decide

/-- The path of the table, unless that is built in. -/
def TableSource.path? : TableSource → Option String
  | .builtin => none
  | .file path => some path

/-- The path of the listing, unless that comes from the standard input. -/
def ListingSource.path? : ListingSource → Option String
  | .stdin => none
  | .file path => some path

/-- The paths of the files that a run has to open. -/
def Settings.paths (s : Settings) : List String :=
  s.machines.path?.toList ++ s.input.path?.toList

/-- The records, fields, arguments and files named are of a kind. -/
def Failure.NamesOnly (Known : String → Prop) : Failure → Prop
  | .missingArgument name => Known name
  | .invalidListing error | .invalidTable error => error.cause.NamesOnly Known
  | .tableUnreadable path _ => Known path
  | .missingRunners | .missingRunnerField .. => True

def RunFailure.NamesOnly (Known : String → Prop) : RunFailure → Prop
  | .arguments failure | .loadingTable failure | .readingListing failure | .selecting failure =>
    failure.NamesOnly Known
  | .openingListing path _ => Known path
  | .writing _ => True

/-! ### Messages -/

theorem SystemError.controlFree_of_mem_texts : ∀ entry ∈ texts, ControlFree entry.2 := by
  unfold texts
  repeat refine List.forall_mem_cons.mpr ⟨controlFree_ofList (by decide), ?_⟩
  exact nofun

theorem SystemError.controlFree_numbered (number : Nat) : ControlFree (numbered number) := by
  have hnumber := controlFree_toString number
  have htext : ControlFree ((texts.lookup number).getD s!"Unknown error {number}") := by
    cases h : texts.lookup number with
    | none => exact controlFree_append.mpr ⟨by decide, hnumber⟩
    | some text =>
      obtain ⟨before, after, htexts, -⟩ := List.lookup_eq_some_iff.mp h
      refine controlFree_of_mem_texts (number, text) ?_
      rw [htexts]
      exact List.mem_append_right _ List.mem_cons_self
  unfold numbered
  simp only [controlFree_append]
  exact ⟨⟨⟨htext, by decide⟩, hnumber⟩, by decide⟩

theorem SystemError.controlFree_message (error : SystemError) : ControlFree error.message := by
  cases error with
  | refused stream => cases stream <;> decide
  | nulInName => exact controlFree_ofList (by decide)
  | _ => exact controlFree_numbered _

namespace Json

theorem Found.controlFree_text (found : Found) : ControlFree found.text := by
  cases found with
  | boolean b => cases b <;> decide
  | integer n =>
    unfold text
    rw [controlFree_append, controlFree_append]
    exact ⟨⟨by decide, Text.controlFree_int n⟩, by decide⟩
  | float negative x =>
    unfold text
    rw [controlFree_append, controlFree_append]
    exact ⟨⟨by decide, Text.controlFree_float negative x⟩, by decide⟩
  | string s =>
    unfold text
    rw [controlFree_append]
    exact ⟨by decide, Text.controlFree_quoted s⟩
  | _ => decide

theorem controlFree_elementCount (n : Nat) : ControlFree (elementCount n) := by
  unfold elementCount
  split
  · decide
  · rw [controlFree_append]
    exact ⟨controlFree_toString n, by decide⟩

theorem Wanted.controlFree_text {found : Found} {wanted : Wanted}
    (h : (Cause.invalidType found wanted).NamesOnly ControlFree) : ControlFree wanted.text := by
  cases wanted with
  | record name =>
    unfold text
    rw [controlFree_append]
    exact ⟨by decide, h⟩
  | _ => decide

theorem Cause.controlFree_text {cause : Cause} (h : cause.NamesOnly ControlFree) :
    ControlFree cause.text := by
  cases cause with
  | ended inside =>
    have hinside : ControlFree inside.text := by cases inside <;> decide
    unfold text
    rw [controlFree_append]
    exact ⟨controlFree_ofList (by decide), hinside⟩
  | invalidType found wanted =>
    unfold text
    simp only [controlFree_append]
    exact ⟨⟨⟨by decide, found.controlFree_text⟩, by decide⟩, Wanted.controlFree_text h⟩
  | invalidLength length record arity =>
    have hlength := controlFree_toString length
    have harity := controlFree_elementCount arity
    unfold text
    simp only [controlFree_append]
    exact ⟨⟨⟨⟨⟨by decide, hlength⟩, controlFree_ofList (by decide)⟩, h⟩, by decide⟩, harity⟩
  | missingField field | duplicateField field =>
    unfold text
    rw [controlFree_append, controlFree_append]
    exact ⟨⟨controlFree_ofList (by decide), h⟩, by decide⟩
  | io error => exact error.controlFree_message
  | _ => exact controlFree_ofList (by decide)

theorem Error.controlFree_message {error : Error} (h : error.cause.NamesOnly ControlFree) :
    ControlFree error.message := by
  have hcause := Cause.controlFree_text h
  unfold message
  split
  case h_1 => exact hcause
  case h_2 place _ =>
    simp only [controlFree_append]
    refine ⟨⟨⟨⟨hcause, by decide⟩, ?_⟩, by decide⟩, ?_⟩
    · exact controlFree_toString place.line
    · exact controlFree_toString place.column

end Json

theorem Failure.controlFree_message {failure : Failure} (h : failure.NamesOnly ControlFree) :
    ControlFree failure.message := by
  cases failure with
  | missingArgument name =>
    unfold message
    rw [controlFree_append]
    exact ⟨controlFree_ofList (by decide), h⟩
  | invalidListing error | invalidTable error =>
    unfold message
    rw [controlFree_append]
    exact ⟨controlFree_ofList (by decide), Json.Error.controlFree_message h⟩
  | missingRunners => exact controlFree_ofList (by decide)
  | missingRunnerField index field =>
    have hindex := controlFree_toString index
    have hfield : ControlFree field.key := by cases field <;> decide
    unfold message
    simp only [controlFree_append]
    exact ⟨⟨⟨⟨by decide, hindex⟩, controlFree_ofList (by decide)⟩, hfield⟩, by decide⟩
  | tableUnreadable path error =>
    unfold message
    simp only [controlFree_append]
    exact ⟨⟨⟨controlFree_ofList (by decide), h⟩, by decide⟩, error.controlFree_message⟩

theorem Failure.controlFree_chain {failure : Failure} (h : failure.NamesOnly ControlFree) :
    ∀ s ∈ failure.chain, ControlFree s := by
  refine List.forall_mem_cons.mpr ⟨controlFree_message h, fun s hs => ?_⟩
  rw [Option.mem_toList] at hs
  cases failure with
  | invalidListing error =>
    cases hs
    exact Json.Error.controlFree_message h
  | tableUnreadable path error =>
    cases hs
    exact error.controlFree_message
  | _ => cases hs

theorem RunFailure.controlFree_chain {failure : RunFailure} (h : failure.NamesOnly ControlFree) :
    ∀ s ∈ failure.chain, ControlFree s := by
  cases failure with
  | arguments failure => exact Failure.controlFree_chain h
  | loadingTable failure | readingListing failure | selecting failure =>
    exact List.forall_mem_cons.mpr ⟨controlFree_ofList (by decide), Failure.controlFree_chain h⟩
  | openingListing path error =>
    unfold chain
    rw [List.forall_mem_cons, List.forall_mem_singleton, controlFree_append]
    exact ⟨⟨controlFree_ofList (by decide), h⟩, error.controlFree_message⟩
  | writing error =>
    unfold chain
    rw [List.forall_mem_cons, List.forall_mem_singleton]
    exact ⟨controlFree_ofList (by decide), error.controlFree_message⟩

/-- With names that have no control characters, the message of a failure has none. -/
theorem RunFailure.controlFree_message {failure : RunFailure} (h : failure.NamesOnly ControlFree) :
    ControlFree failure.message :=
  .intercalate (by decide) (controlFree_chain h)

/-! ### The names in the failures of a run -/

variable {Known : String → Prop}

theorem Machine.record_names (h : ∀ word ∈ vocabulary, Known word) :
    Machine.record.Names Known where
  name := h _ (by decide)
  key := by
    intro field hf
    simp only [Machine.record, List.mem_cons, List.not_mem_nil, or_false] at hf
    rcases hf with rfl | rfl <;> exact h _ (by decide)
  value := by
    intro field hf
    simp only [Machine.record, List.mem_cons, List.not_mem_nil, or_false] at hf
    rcases hf with rfl | rfl
    · exact Json.Reader.string_names.map fun name (m : PartialMachine) => { m with name := some name }
    · exact Json.Reader.string_names.map fun id (m : PartialMachine) => { m with id := some id }
  lacking := by
    intro m field hm
    simp only [Machine.record] at hm
    split at hm <;> cases hm <;> exact h _ (by decide)

theorem Runner.record_names (h : ∀ word ∈ vocabulary, Known word) :
    Runner.record.Names Known where
  name := h _ (by decide)
  key := by
    intro field hf
    simp only [Runner.record, List.mem_cons, List.not_mem_nil, or_false] at hf
    rcases hf with rfl | rfl | rfl <;> exact h _ (by decide)
  value := by
    intro field hf
    simp only [Runner.record, List.mem_cons, List.not_mem_nil, or_false] at hf
    rcases hf with rfl | rfl | rfl
    · have hname : Json.Reader.string.optional.Names Known :=
        Json.Reader.optional_names Json.Reader.string_names
      exact hname.map fun name (r : Runner) => { r with name }
    · have hstatus : Status.reader.Names Known := Json.Reader.string_names.map Status.ofText
      exact (Json.Reader.optional_names hstatus).map fun status (r : Runner) => { r with status }
    · have hbusy : Json.Reader.boolean.optional.Names Known :=
        Json.Reader.optional_names Json.Reader.boolean_names
      exact hbusy.map fun busy (r : Runner) => { r with busy }
  lacking := by
    intro r field hr
    cases hr

theorem Listing.record_names (h : ∀ word ∈ vocabulary, Known word) :
    Listing.record.Names Known where
  name := h _ (by decide)
  key := by
    intro field hf
    rw [Listing.record, List.mem_singleton] at hf
    rw [hf]
    exact h _ (by decide)
  value := by
    intro field hf
    rw [Listing.record, List.mem_singleton] at hf
    have hrunners := Json.Reader.list_names (Json.Record.reader_names (Runner.record_names h))
    rw [hf]
    exact (Json.Reader.optional_names hrunners).map fun runners _ => runners
  lacking := by
    intro runners field hr
    cases hr

theorem Table.namesOnly_of_read (h : ∀ word ∈ vocabulary, Known word) {input : Json.Input}
    {failure : Failure} (hread : (Table.read input).outcome = .error failure) :
    failure.NamesOnly Known := by
  obtain ⟨error, rfl⟩ := Table.exists_invalidTable hread
  have hreader := Json.Reader.list_names (Json.Record.reader_names (Machine.record_names h))
  exact hreader.parse (Table.read_outcome_of_parse.mp hread)

theorem TableSource.namesOnly_of_load (h : ∀ word ∈ vocabulary, Known word) {files : Files}
    {source : TableSource} (hpath : ∀ path ∈ source.path?, Known path) {failure : Failure}
    (hload : (source.load files).outcome = .error failure) : failure.NamesOnly Known := by
  cases source with
  | builtin =>
    rw [TableSource.load, Table.builtin] at hload
    exact Table.namesOnly_of_read h hload
  | file path =>
    change (Table.load files path).outcome = .error failure at hload
    cases hf : files path with
    | error error =>
      rw [Table.load_of_error hf] at hload
      cases hload
      exact hpath path rfl
    | ok input =>
      rw [Table.load_outcome_of_ok hf] at hload
      exact Table.namesOnly_of_read h hload

theorem Listing.namesOnly_of_read (h : ∀ word ∈ vocabulary, Known word) {input : Json.Input}
    {failure : Failure} (hread : (Listing.read input).outcome = .error failure) :
    failure.NamesOnly Known := by
  cases hp : Listing.record.reader.parse input with
  | error error =>
    rw [Listing.read, hp] at hread
    cases hread
    exact (Json.Record.reader_names (Listing.record_names h)).parse hp
  | ok runners =>
    rw [Listing.read, hp] at hread
    cases runners with
    | none =>
      cases hread
      trivial
    | some runners => cases hread

namespace Run

/-- Every name in the failure of a run is of the vocabulary, or a path of its settings. -/
theorem namesOnly (h : ∀ word ∈ vocabulary, Known word) {around : Surroundings} {settings : Settings}
    (hpaths : ∀ path ∈ settings.paths, Known path) {failure : RunFailure}
    (hrun : (run around settings).outcome = .error failure) : failure.NamesOnly Known := by
  rw [Settings.paths, List.forall_mem_append] at hpaths
  simp only [Option.mem_toList] at hpaths
  cases ht : (settings.machines.load around.files).outcome with
  | error cause =>
    rw [run_of_table_error ht] at hrun
    cases hrun
    exact TableSource.namesOnly_of_load h hpaths.1 ht
  | ok table =>
    cases ho : opened around settings with
    | error error =>
      obtain ⟨path, hinput, hr⟩ := readListing_of_not_opened ho
      cases (run_of_listing_error ht (congrArg Attempt.outcome hr)).1.symm.trans hrun
      exact hpaths.2 path (by rw [hinput]; rfl)
    | ok input =>
      cases hl : (Listing.read input).outcome with
      | error cause =>
        have hr : (readListing around settings).outcome = .error (.readingListing cause) := by
          rw [readListing_of_opened ho]
          exact Attempt.inContext_outcome_of_error hl
        cases (run_of_listing_error ht hr).1.symm.trans hrun
        exact Listing.namesOnly_of_read h hl
      | ok runners =>
        have hout := (run_of_reads ht ⟨input, ho, hl⟩).1.symm.trans hrun
        cases hids : selection settings.mode runners table with
        | error cause =>
          obtain ⟨index, field, -, rfl⟩ := Selection.selection_eq_error_iff.mp hids
          rw [remaining_of_selection_error hids] at hout
          cases hout
          trivial
        | ok ids =>
          rw [remaining_of_selection_ok hids] at hout
          unfold write at hout
          split at hout <;> cases hout
          trivial

end Run

/-! ### Processes -/

theorem Arguments.mem_paths {args : Arguments} {settings : Settings} {path : String}
    (h : args.settings = .ok settings) (hp : path ∈ settings.paths) :
    path ∈ args.machines ∨ path ∈ args.input := by
  obtain ⟨_ | mode, machines, input⟩ := args <;> cases h
  rw [Settings.paths, List.mem_append, Option.mem_toList, Option.mem_toList] at hp
  refine hp.imp (fun hm => ?_) fun hi => ?_
  · cases machines with
    | none => cases hm
    | some _ => exact hm
  · cases input with
    | none => cases hi
    | some input =>
      dsimp only at hi
      split at hi
      · cases hi
      · exact hi

namespace Invocation

variable {i : Invocation} {args : Arguments} {failure : RunFailure}

/-- The error of a process is the failure of the run of its arguments. -/
theorem outcome_of_mem_diagnostics (hread : CommandLine.read i.environment i.words = .ok args)
    (h : .failed failure ∈ i.outcome.diagnostics) : (i.runArguments args).outcome = .error failure := by
  cases hf : LogFilter.ofVariable? i.log with
  | none =>
    rw [outcome, hf] at h
    cases h
  | some filter =>
    rw [outcome_of_whole hf] at h
    cases hrun : (i.runArguments args).outcome with
    | ok => simp [outcomeWith, hread, hrun] at h
    | error cause =>
      obtain rfl : failure = cause := by simpa [outcomeWith, hread, hrun] using h
      rfl

theorem namesOnly (h : ∀ word ∈ vocabulary, Known word) (hmachines : ∀ path ∈ args.machines, Known path)
    (hinput : ∀ path ∈ args.input, Known path)
    (hrun : (i.runArguments args).outcome = .error failure) : failure.NamesOnly Known := by
  cases hs : args.settings with
  | error cause =>
    obtain ⟨_ | mode, machines, input⟩ := args <;> cases hs
    cases hrun
    exact h _ (by decide)
  | ok settings =>
    rw [runArguments_of_ok hs] at hrun
    refine Run.namesOnly h (fun path hp => ?_) hrun
    exact (Arguments.mem_paths hs hp).elim (hmachines path) (hinput path)

end Invocation

/-! ### One line -/

/-- **A failure is on one line**, whatever the files and the standard input hold.  If the paths of a run have
no control characters, neither has the message of its failure, and if those that a process is given have
none, neither has its error line. -/
theorem failure_on_one_line :
    (∀ (around : Surroundings) (settings : Settings) (failure : RunFailure),
      (∀ path ∈ settings.paths, ControlFree path) →
      (run around settings).outcome = .error failure →
      ControlFree failure.message ∧ '\n' ∉ failure.message.toList) ∧
    ∀ (i : Invocation) (args : Arguments) (failure : RunFailure),
      CommandLine.read i.environment i.words = .ok args →
      (∀ path ∈ args.machines, ControlFree path) → (∀ path ∈ args.input, ControlFree path) →
      .failed failure ∈ i.outcome.diagnostics →
      ControlFree (Diagnostic.failed failure).text ∧
        '\n' ∉ (Diagnostic.failed failure).text.toList := by
  refine ⟨fun around settings failure hpaths hrun => ?_,
    fun i args failure hread hmachines hinput hfailed => ?_⟩
  · have hnames := Run.namesOnly controlFree_vocabulary hpaths hrun
    have hmessage := RunFailure.controlFree_message hnames
    exact ⟨hmessage, hmessage.not_mem_newline⟩
  · have hrun := Invocation.outcome_of_mem_diagnostics hread hfailed
    have hnames := Invocation.namesOnly controlFree_vocabulary hmachines hinput hrun
    have htext : ControlFree (Diagnostic.failed failure).text :=
      controlFree_append.mpr ⟨by decide, RunFailure.controlFree_message hnames⟩
    exact ⟨htext, htext.not_mem_newline⟩

/-- A table that is a string of two lines, the second of which looks like an error line. -/
theorem forged_line_quoted :
    let i : Invocation :=
      { words := ["ONLINE", "--machines", "machines.json"], stdin := .ofBytes []
        files := fun _ => .ok (.ofBytes (Text.Utf8.encode "\"\\nerror: none\"")) }
    let failure : RunFailure :=
      .loadingTable (.invalidTable ⟨.invalidType (.string "\nerror: none") .sequence, some ⟨1, 15⟩⟩)
    (run i.around ⟨.online, .file "machines.json", .stdin⟩).outcome = .error failure ∧
      ControlFree failure.message ∧ i.outcome.diagnostics = [.failed failure] ∧
      ControlFree (Diagnostic.failed failure).text := by
  intro i failure
  have hrun : (run i.around ⟨.online, .file "machines.json", .stdin⟩).outcome = .error failure := by
    decide +kernel
  have hout : i.outcome.diagnostics = [.failed failure] := by decide +kernel
  have hpath : ControlFree "machines.json" := by decide
  refine ⟨hrun, (failure_on_one_line.1 _ _ failure ?_ hrun).1, hout, ?_⟩
  · simpa [Settings.paths, TableSource.path?, ListingSource.path?] using hpath
  · refine (failure_on_one_line.2 i ⟨some "ONLINE", some "machines.json", none⟩ failure rfl ?_ ?_ ?_).1
    · simpa using hpath
    · simp
    · simp [hout]

end BuildFleet
