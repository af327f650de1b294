import Mathlib.Algebra.Order.BigOperators.Group.List
import BuildFleet.Process
import BuildFleet.Proofs.Lines
import BuildFleet.Proofs.Machine.Report
import BuildFleet.Proofs.Text.Control

/-!
# Machines — the lines of what is said about a table

A warning about a machine names it.  The id in it is quoted, but the name stands as it does in the table.
So a name with a line feed in it breaks its warnings, and what stands behind the line feed can look like a
line that somebody else has printed.

* `Event.controlFree_message_iff`, `Diagnostic.count_newline_logged`: the name is all that matters.
* `Table.mem_names_iff`: the names in the warnings are those of machines whose id is no UUID, and those
  that occur again.
* `Table.warnings_printed`: there are as many lines as warnings exactly if no such name has a line feed.
-/

namespace BuildFleet
open Text (ControlFree IsControl controlFree_append controlFree_ofList controlFree_quoted)

/-! ### The name in a warning -/

/-- The name of a machine that the event repeats as it is. -/
def Event.name? : Event → Option String
  | .idNotUuid name _ | .nameRepeated name => some name
  | _ => none

/-- The event is one of those about a table that has been read. -/
inductive Event.AboutTable : Event → Prop where
  | tableEmpty : AboutTable .tableEmpty
  | idNotUuid (name id : String) : AboutTable (.idNotUuid name id)
  | nameRepeated (name : String) : AboutTable (.nameRepeated name)

theorem Table.aboutTable_of_mem_warnings {t : Table} {event : Event} (h : event ∈ warnings t) :
    event.AboutTable := by
  rcases mem_warnings_cases h with ⟨rfl, -⟩ | ⟨name, id, rfl⟩ | ⟨name, rfl⟩
  · exact .tableEmpty
  · exact .idNotUuid name id
  · exact .nameRepeated name

/-- Whatever the id is, the message has a control character only if the name has one. -/
theorem Event.controlFree_message_iff {event : Event} (h : event.AboutTable) :
    ControlFree event.message ↔ ∀ name ∈ event.name?, ControlFree name := by
  cases h with
  | tableEmpty => exact iff_of_true (controlFree_ofList (by decide)) (by simp [name?])
  | idNotUuid name id =>
    have hbefore : ControlFree "Machine " := by decide
    have hbetween : ControlFree " has id " := by decide
    have hafter : ControlFree " which is not a UUID, it will be printed as-is" :=
      controlFree_ofList (by decide)
    unfold message
    simp only [controlFree_append, name?, Option.mem_some_iff, forall_eq']
    exact ⟨fun h => h.1.1.1.2, fun h => ⟨⟨⟨⟨hbefore, h⟩, hbetween⟩, controlFree_quoted id⟩, hafter⟩⟩
  | nameRepeated name =>
    have hbefore : ControlFree "Machine name " := by decide
    have hafter : ControlFree " appears more than once, every entry will be reported" :=
      controlFree_ofList (by decide)
    unfold message
    simp only [controlFree_append, name?, Option.mem_some_iff, forall_eq']
    exact ⟨fun h => h.1.2, fun h => ⟨⟨hbefore, h⟩, hafter⟩⟩

/-! ### Line feeds -/

/-- The number of line feeds in a text. -/
def newlines (text : String) : Nat :=
  text.toList.count '\n'

theorem newlines_append (s t : String) : newlines (s ++ t) = newlines s + newlines t := by
  rw [newlines, String.toList_append, List.count_append]
  rfl

theorem newlines_eq_zero_iff {text : String} : newlines text = 0 ↔ '\n' ∉ text.toList :=
  List.count_eq_zero

theorem newlines_of_controlFree {text : String} (h : ControlFree text) : newlines text = 0 :=
  newlines_eq_zero_iff.mpr h.not_mem_newline

/-- The line feeds in the name of a machine that the event repeats, if there is one. -/
def Event.newlinesInName (event : Event) : Nat :=
  event.name?.elim 0 newlines

theorem Event.newlines_message {event : Event} (h : event.AboutTable) :
    newlines event.message = event.newlinesInName := by
  cases h with
  | tableEmpty => exact newlines_of_controlFree (controlFree_ofList (by decide))
  | idNotUuid name id =>
    have hbefore : newlines "Machine " = 0 := by decide
    have hbetween : newlines " has id " = 0 := by decide
    have hafter : newlines " which is not a UUID, it will be printed as-is" = 0 :=
      newlines_of_controlFree (controlFree_ofList (by decide))
    have hid := newlines_of_controlFree (controlFree_quoted id)
    show newlines ("Machine " ++ name ++ " has id " ++ Text.quoted id ++
      " which is not a UUID, it will be printed as-is") = newlines name
    simp only [newlines_append]
    omega
  | nameRepeated name =>
    have hbefore : newlines "Machine name " = 0 := by decide
    have hafter : newlines " appears more than once, every entry will be reported" = 0 :=
      newlines_of_controlFree (controlFree_ofList (by decide))
    show newlines ("Machine name " ++ name ++ " appears more than once, every entry will be reported") =
      newlines name
    simp only [newlines_append]
    omega

namespace Diagnostic

/-- A character is shown as it is, or spelled without control characters; a line feed is never spelled. -/
theorem logChar_cases (c : Char) :
    logChar c = [c] ∨ c ≠ '\n' ∧ ∀ d ∈ logChar c, ¬ IsControl d := by
  have hsigns : ∀ d ∈ ['\\', 'x', '0'], ¬ IsControl d := by decide
  unfold logChar
  split
  case isTrue hc =>
    refine .inr ⟨?_, fun d hd => ?_⟩
    · rintro rfl
      revert hc
      decide
    · simp only [List.cons_append, List.mem_cons, List.mem_append, List.mem_replicate] at hd
      rcases hd with rfl | rfl | ⟨-, rfl⟩ | hd
      · exact hsigns _ (by decide)
      · exact hsigns _ (by decide)
      · exact hsigns _ (by decide)
      · exact Text.not_isControl_of_mem_toDigits (by decide) hd
  case isFalse =>
    split
    case isTrue hc =>
      refine .inr ⟨?_, fun d hd => Text.not_isControl_of_mem_codePoint hd⟩
      rintro rfl
      revert hc
      decide
    case isFalse => exact .inl rfl

/-- The log adds no line feed to a message, and takes none out. -/
theorem count_newline_logChar (cs : List Char) : (cs.flatMap logChar).count '\n' = cs.count '\n' := by
  induction cs with
  | nil => rfl
  | cons c cs ih =>
    rw [List.flatMap_cons, List.count_append, ih, List.count_cons]
    rcases logChar_cases c with hc | ⟨hne, hc⟩
    · rw [hc, List.count_singleton, Nat.add_comm]
    · have hnone : (logChar c).count '\n' = 0 :=
        List.count_eq_zero.mpr fun hmem => hc _ hmem (.inl (by decide))
      rw [hnone, if_neg (by simpa using hne), Nat.zero_add, Nat.add_zero]

theorem newlines_logged {event : Event} (h : event.AboutTable) :
    newlines (Diagnostic.logged event).text = event.newlinesInName := by
  have hlevel : newlines event.level.text = 0 := by
    cases h <;> exact newlines_of_controlFree (controlFree_ofList (by decide))
  have htarget : newlines event.target = 0 := by
    cases h <;> exact newlines_of_controlFree (controlFree_ofList (by decide))
  have hmessage : newlines (String.ofList (event.message.toList.flatMap logChar)) =
      event.newlinesInName := by
    rw [newlines, String.toList_ofList, count_newline_logChar]
    exact Event.newlines_message h
  have hblank : newlines " " = 0 := by decide
  have hcolon : newlines ": " = 0 := by decide
  show newlines (event.level.text ++ " " ++ event.target ++ ": " ++
    String.ofList (event.message.toList.flatMap logChar)) = event.newlinesInName
  simp only [newlines_append]
  omega

/-- What the log prints of events, each with a line feed behind it. -/
def printed (events : List Event) : String :=
  lines (events.map fun event => (Diagnostic.logged event).text)

end Diagnostic

/-! ### Lines -/

namespace Run

theorem length_pieces (text : String) : (pieces text).length = newlines text + 1 := by
  have hsplit : ∀ cs : List Char, (cs.splitOn '\n').length = cs.count '\n' + 1 := by
    intro cs
    induction cs with
    | nil => rfl
    | cons c cs ih =>
      rw [List.splitOn_cons_eq_if_modifyHead, List.count_cons]
      split
      · rw [List.length_cons, ih]
      · rw [List.length_modifyHead, ih]
  rw [pieces, List.length_map, hsplit]
  rfl

/-- There is a line for each text that is written, and one more for each line feed in it. -/
theorem length_decoded_lines (texts : List String) :
    (decoded (lines texts)).length = texts.length + (texts.map newlines).sum := by
  rw [decoded_lines]
  induction texts with
  | nil => rfl
  | cons text texts ih =>
    rw [List.flatMap_cons, List.length_append, length_pieces, ih, List.length_cons, List.map_cons,
      List.sum_cons]
    omega

end Run

namespace Table

variable {machines : List Machine} {earlier : List String} {t : Table} {name : String}

/-! ### The names in the warnings -/

theorem nameRepeated_mem_warningsAfter :
    .nameRepeated name ∈ warningsAfter earlier machines ↔
      name ∈ earlier ∧ name ∈ machines.map (·.name) ∨ 2 ≤ (machines.map (·.name)).count name := by
  induction machines generalizing earlier with
  | nil => simp [warningsAfter]
  | cons m rest ih =>
    have hid : .nameRepeated name ∉ if Uuid.isUuid m.id then [] else [Event.idNotUuid m.name m.id] := by
      split <;> simp
    have hm : .nameRepeated name ∈ machineWarnings earlier m ↔ name = m.name ∧ name ∈ earlier := by
      rw [machineWarnings, List.mem_append, or_iff_right hid]
      by_cases h : m.name ∈ earlier
      · rw [if_pos (List.contains_iff_mem.mpr h), List.mem_singleton, Event.nameRepeated.injEq]
        exact ⟨fun hn => ⟨hn, hn ▸ h⟩, And.left⟩
      · rw [if_neg (mt List.contains_iff_mem.mp h)]
        exact iff_of_false List.not_mem_nil fun hm => h (hm.1 ▸ hm.2)
    rw [warningsAfter, List.mem_append, hm, ih, List.map_cons, List.count_cons]
    by_cases hn : m.name = name
    · -- the name is in the front now, so it occurs again if there is one more of it
      subst hn
      have hpos : m.name ∈ rest.map (·.name) ↔ 2 ≤ (rest.map (·.name)).count m.name + 1 := by
        rw [← List.count_pos_iff]
        omega
      simp only [true_and, List.mem_cons, true_or, and_true, beq_self_eq_true, if_true, hpos]
      constructor
      · rintro (h | h | h)
        · exact .inl h
        · exact .inr h
        · exact .inr (by omega)
      · rintro (h | h)
        · exact .inl h
        · exact .inr (.inl h)
    · have hn' : name ≠ m.name := Ne.symm hn
      simp [hn, hn']

theorem nameRepeated_mem_warnings :
    .nameRepeated name ∈ warnings t ↔ 2 ≤ (t.machines.map (·.name)).count name := by
  have hempty : .nameRepeated name ∉ if t.isEmpty then [Event.tableEmpty] else [] := by
    split <;> simp
  rw [warnings, List.mem_append, or_iff_right hempty, nameRepeated_mem_warningsAfter]
  simp

/-- Names are repeated in two places: with an id that is no UUID, and where they occur again. -/
theorem mem_names_iff :
    name ∈ (warnings t).filterMap Event.name? ↔
      (∃ id, ⟨name, id⟩ ∈ t.machines ∧ ¬ Uuid.Spelling id.toList) ∨
        2 ≤ (t.machines.map (·.name)).count name := by
  rw [List.mem_filterMap]
  constructor
  · rintro ⟨event, he, hname⟩
    rcases mem_warnings_cases he with ⟨rfl, -⟩ | ⟨other, id, rfl⟩ | ⟨other, rfl⟩
    · cases hname
    · cases hname
      obtain ⟨hm, hid⟩ := idNotUuid_mem_warnings.mp he
      refine .inl ⟨id, hm, fun hs => ?_⟩
      rw [Uuid.isUuid_iff.mpr hs] at hid
      cases hid
    · cases hname
      exact .inr (nameRepeated_mem_warnings.mp he)
  · rintro (⟨id, hm, hid⟩ | hcount)
    · have hid' : Uuid.isUuid id = false := Bool.eq_false_iff.mpr (mt Uuid.isUuid_iff.mp hid)
      exact ⟨.idNotUuid name id, idNotUuid_mem_warnings.mpr ⟨hm, hid'⟩, rfl⟩
    · exact ⟨.nameRepeated name, nameRepeated_mem_warnings.mpr hcount, rfl⟩

/-! ### Reading and loading -/

/-- How the warnings about a table are printed. -/
structure Printed (t : Table) (events : List Event) : Prop where
  /-- A message has a control character only if it repeats a name that has one. -/
  message : ∀ event ∈ events, (ControlFree event.message ↔ ∀ name ∈ event.name?, ControlFree name)
  /-- None has one exactly if none of these names has one. -/
  plain : (∀ event ∈ events, ControlFree event.message) ↔
    ∀ name ∈ events.filterMap Event.name?, ControlFree name
  /-- The names that are repeated. -/
  named : ∀ name, name ∈ events.filterMap Event.name? ↔
    (∃ id, ⟨name, id⟩ ∈ t.machines ∧ ¬ Uuid.Spelling id.toList) ∨
      2 ≤ (t.machines.map (·.name)).count name
  /-- The lines that are printed: one for each event, and one for each line feed in a name. -/
  lines : (Run.decoded (Diagnostic.printed events)).length =
    events.length + ((events.filterMap Event.name?).map newlines).sum
  /-- There are as many as events exactly if no name has a line feed. -/
  onePerEvent : (Run.decoded (Diagnostic.printed events)).length = events.length ↔
    ∀ name ∈ events.filterMap Event.name?, '\n' ∉ name.toList

theorem sum_newlinesInName (events : List Event) :
    (events.map Event.newlinesInName).sum = ((events.filterMap Event.name?).map newlines).sum := by
  induction events with
  | nil => rfl
  | cons event events ih =>
    rw [List.map_cons, List.sum_cons, ih, Event.newlinesInName]
    cases hname : event.name? with
    | none =>
      rw [List.filterMap_cons_none hname]
      exact Nat.zero_add _
    | some name =>
      rw [List.filterMap_cons_some hname]
      rfl

theorem printed_warnings (t : Table) : t.Printed (warnings t) := by
  have hlines : (Run.decoded (Diagnostic.printed (warnings t))).length =
      (warnings t).length + (((warnings t).filterMap Event.name?).map newlines).sum := by
    have hnewlines : ((warnings t).map fun event => newlines (Diagnostic.logged event).text) =
        (warnings t).map Event.newlinesInName :=
      List.map_congr_left fun event he => Diagnostic.newlines_logged (aboutTable_of_mem_warnings he)
    rw [Diagnostic.printed, Run.length_decoded_lines, List.length_map, List.map_map]
    exact congrArg _ ((congrArg List.sum hnewlines).trans (sum_newlinesInName _))
  have hmessage : ∀ event ∈ warnings t,
      (ControlFree event.message ↔ ∀ name ∈ event.name?, ControlFree name) :=
    fun event he => Event.controlFree_message_iff (aboutTable_of_mem_warnings he)
  refine ⟨hmessage, ?_, fun name => mem_names_iff, hlines, ?_⟩
  · rw [forall₂_congr hmessage]
    simp only [List.mem_filterMap, forall_exists_index, and_imp]
    exact ⟨fun h name event he hn => h event he name hn, fun h event he name hn => h name event he hn⟩
  · rw [hlines, Nat.add_eq_left, List.sum_eq_zero_iff, List.forall_mem_map]
    exact forall₂_congr fun name _ => newlines_eq_zero_iff

/-- Loading says one thing more, which is no warning. -/
theorem warnings_of_load {files : Files} {source : TableSource}
    (h : (source.load files).outcome = .ok t) :
    (source.load files).events.filter (·.level = .warn) = warnings t := by
  have hall : (warnings t).filter (·.level = .warn) = warnings t :=
    List.filter_eq_self.mpr fun event he => decide_eq_true (level_of_mem_warnings he)
  cases source with
  | builtin =>
    have hread : (read (.ofString builtinText)).outcome = .ok t := h
    show (read (.ofString builtinText)).events.filter _ = _
    rw [events_of_read hread, hall]
  | file path =>
    change (load files path).outcome = .ok t at h
    show (load files path).events.filter _ = _
    cases hf : files path with
    | error error =>
      rw [load_of_error hf] at h
      cases h
    | ok input =>
      rw [load_outcome_of_ok hf] at h
      have hevents : (load files path).events = .tableOpened path :: warnings t := by
        rw [load, hf, ← events_of_read h]
        rfl
      rw [hevents, List.filter_cons_of_neg (of_decide_eq_false rfl), hall]

/-- **The lines of the warnings.**  Whatever the ids of a table are, its warnings take one line each unless
a name that they repeat has a line feed.  Of such names each line feed makes one line more.  The names that
are repeated are those of machines whose id is no UUID, and those that occur again. -/
theorem warnings_printed (t : Table) :
    (∀ input, (read input).outcome = .ok t → t.Printed (read input).events) ∧
    ∀ files source, (TableSource.load files source).outcome = .ok t →
      t.Printed ((source.load files).events.filter (·.level = .warn)) := by
  refine ⟨fun input h => ?_, fun files source h => ?_⟩
  · rw [events_of_read h]
    exact printed_warnings t
  · rw [warnings_of_load h]
    exact printed_warnings t

/-- A machine with a line feed in its id, and another one of its name, by themselves and from a file. -/
theorem warnings_printed_twins :
    let text := "[[\"a\",\"x\\ny\"],[\"a\",\"14930b12-a780-4dd0-a131-069f5d6024bd\"]]"
    let files : Files := fun _ => .ok (.ofString text)
    let t : Table := ⟨[⟨"a", "x\ny"⟩, ⟨"a", "14930b12-a780-4dd0-a131-069f5d6024bd"⟩]⟩
    let events : List Event := [.idNotUuid "a" "x\ny", .nameRepeated "a"]
    (read (.ofString text)).outcome = .ok t ∧ t.Printed events ∧
      (TableSource.load files (.file "machines.json")).outcome = .ok t ∧
      t.Printed ((TableSource.load files (.file "machines.json")).events.filter (·.level = .warn)) := by
  intro text files t events
  have hread : (read (.ofString text)).outcome = .ok t := by decide +kernel
  have hevents : (read (.ofString text)).events = events := by decide +kernel
  have hload : (TableSource.load files (.file "machines.json")).outcome = .ok t :=
    (load_outcome_of_ok rfl).trans hread
  refine ⟨hread, ?_, hload, (warnings_printed t).2 _ _ hload⟩
  rw [← hevents]
  exact (warnings_printed t).1 _ hread

/-- A line feed in a name makes two lines of one warning, of which the second can look like any other. -/
theorem name_breaks_line :
    let input := Json.Input.ofString "[\x7b\"name\":\"a\\nb\",\"id\":\"x\"\x7d]"
    (read input).outcome = .ok ⟨[⟨"a\nb", "x"⟩]⟩ ∧
      (read input).events = [.idNotUuid "a\nb" "x"] ∧
      '\n' ∈ (Event.idNotUuid "a\nb" "x").message.toList ∧
      (Run.decoded (Diagnostic.printed (read input).events)).length = 2 := by
  decide +kernel

end Table

end BuildFleet
