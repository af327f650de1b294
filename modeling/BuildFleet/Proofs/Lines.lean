import BuildFleet.Proofs.Machine.Warnings
import BuildFleet.Proofs.Run
import BuildFleet.Proofs.Selection.Reference
import BuildFleet.Proofs.Uuid

/-!
# Lines — what can be read back of the ids

A run writes a line feed after each id and changes nothing in it, so an id that contains one comes
out as several lines.  The ids can be read back off the output exactly if there is none
(`decoded_lines_eq_iff`).

No spelling of a UUID has one.  The ids of a table that was loaded without a warning about them are
such spellings, so of such a run every line is one of them (`OnePerLine.spelled`), and there are as
many lines as pairs that were selected (`OnePerLine.counted`).

`run_onePerLine`: what can be read off the output of any run that succeeds.
-/

namespace BuildFleet.Run
open Selection (Joined isJoin_flatMap selection_eq_ok_iff)

/-- What stands before, between and after the line feeds of a text. -/
def pieces (text : String) : List String :=
  (text.toList.splitOn '\n').map String.ofList

/-- The lines of a text that ends with a line feed: its pieces without the last one. -/
def decoded (text : String) : List String :=
  (pieces text).dropLast

/-- Loading the table of the settings warns about no id. -/
def WithoutIdWarning (around : Surroundings) (settings : Settings) : Prop :=
  ∀ name id, Event.idNotUuid name id ∉ (settings.machines.load around.files).events

/-- What can be read off the output of a run that has selected these ids. -/
structure OnePerLine (around : Surroundings) (settings : Settings) (table : Table)
    (runners : List Runner) (ids : List String) : Prop where
  loads : Loads around settings table
  reads : Reads around settings runners
  selects : selection settings.mode runners table = .ok ids
  /-- The last piece is empty. -/
  ended : (pieces (run around settings).output).getLast? = some ""
  /-- The others are the ids, if none of these contains a line feed, and else they are not. -/
  decodes : decoded (run around settings).output = ids ↔ ∀ id ∈ ids, '\n' ∉ id.toList
  /-- Without a warning about an id, every line is a UUID. -/
  spelled : WithoutIdWarning around settings →
    ∀ line ∈ decoded (run around settings).output, Uuid.Spelling line.toList ∧ line ≠ ""
  /-- Without a warning about an id, there is a line for each pair that is selected. -/
  counted : WithoutIdWarning around settings →
    (decoded (run around settings).output).length =
      {p : Nat × Nat | Joined settings.mode runners table p.1 p.2}.ncard

/-! ### The pieces of a text -/

/-- A line feed ends a piece wherever it stands. -/
theorem pieces_append_newline (id rest : String) :
    pieces (id ++ "\n" ++ rest) = pieces id ++ pieces rest := by
  have hsplit : (id ++ "\n" ++ rest).toList = id.toList ++ '\n' :: rest.toList := by simp
  rw [pieces, hsplit, List.splitOn_append_cons_self, List.map_append]
  rfl

theorem pieces_of_not_mem_newline {text : String} (h : '\n' ∉ text.toList) : pieces text = [text] := by
  rw [pieces, List.splitOn_eq_singleton h, List.map_singleton, String.ofList_toList]

theorem not_mem_newline_of_mem_splitOn {s piece : List Char} (h : piece ∈ s.splitOn '\n') :
    '\n' ∉ piece := by
  induction s generalizing piece with
  | nil =>
    rw [List.splitOn_nil, List.mem_singleton] at h
    rw [h]
    exact List.not_mem_nil
  | cons c s ih =>
    rw [List.splitOn_cons_eq_if_modifyHead] at h
    split at h
    case isTrue hc =>
      rcases List.mem_cons.mp h with rfl | h
      · exact List.not_mem_nil
      · exact ih h
    case isFalse hc =>
      obtain ⟨first, others, hs⟩ := List.exists_cons_of_ne_nil (List.splitOn_ne_nil '\n' s)
      rw [hs] at h ih
      rcases List.mem_cons.mp h with rfl | h
      · rw [List.mem_cons, not_or]
        exact ⟨fun he => hc (beq_iff_eq.mpr he.symm), ih List.mem_cons_self⟩
      · exact ih (List.mem_cons_of_mem _ h)

theorem not_mem_newline_of_mem_pieces {text piece : String} (h : piece ∈ pieces text) :
    '\n' ∉ piece.toList := by
  obtain ⟨s, hs, rfl⟩ := List.mem_map.mp h
  rw [String.toList_ofList]
  exact not_mem_newline_of_mem_splitOn hs

/-! ### The pieces of what is written -/

/-- What is written is decoded into the pieces of the ids. -/
theorem pieces_lines (ids : List String) : pieces (lines ids) = ids.flatMap pieces ++ [""] := by
  induction ids with
  | nil => rfl
  | cons id ids ih =>
    rw [lines_cons, pieces_append_newline, ih, List.flatMap_cons, List.append_assoc]

theorem decoded_lines (ids : List String) : decoded (lines ids) = ids.flatMap pieces := by
  rw [decoded, pieces_lines, List.dropLast_concat]

theorem decoded_lines_of_not_mem_newline {ids : List String} (h : ∀ id ∈ ids, '\n' ∉ id.toList) :
    decoded (lines ids) = ids := by
  rw [decoded_lines, List.flatMap_congr fun id hid => pieces_of_not_mem_newline (h id hid),
    List.flatMap_singleton']

/-- **The ids can be read back** exactly if none of them contains a line feed. -/
theorem decoded_lines_eq_iff {ids : List String} :
    decoded (lines ids) = ids ↔ ∀ id ∈ ids, '\n' ∉ id.toList := by
  refine ⟨fun h id hid => ?_, decoded_lines_of_not_mem_newline⟩
  rw [← h, decoded_lines] at hid
  obtain ⟨other, -, hpiece⟩ := List.mem_flatMap.mp hid
  exact not_mem_newline_of_mem_pieces hpiece

example : decoded (lines ["a\nb", ""]) = ["a", "b", ""] := by decide

/-! ### The ids of a run -/

variable {around : Surroundings} {settings : Settings} {table : Table} {runners : List Runner}

/-- An id that is selected is that of some machine. -/
theorem exists_machine_of_mem_selection {mode : Mode} {ids : List String}
    (h : selection mode runners table = .ok ids) {id : String} (hid : id ∈ ids) :
    ∃ name, ⟨name, id⟩ ∈ table.machines := by
  obtain ⟨-, rfl⟩ := selection_eq_ok_iff.mp h
  obtain ⟨r, -, hid⟩ := List.mem_flatMap.mp hid
  unfold Selection.idsOf at hid
  split at hid
  · obtain ⟨m, hm, rfl⟩ := List.mem_map.mp hid
    exact ⟨m.name, List.mem_of_mem_filter hm⟩
  · cases hid

theorem spelling_of_withoutIdWarning (ht : Loads around settings table)
    (h : WithoutIdWarning around settings) {name id : String} (hm : ⟨name, id⟩ ∈ table.machines) :
    Uuid.Spelling id.toList := by
  rw [← Uuid.isUuid_iff, ← Bool.not_eq_false]
  exact fun hid => h name id ((TableSource.idNotUuid_mem_load ht).mpr ⟨hm, hid⟩)

/-- **One id on a line.**  The output of a run that succeeds is decoded into the selected ids exactly if
none contains a line feed; without a warning about an id, each line of it is a UUID and stands for one
selected pair. -/
theorem run_onePerLine (h : (run around settings).outcome = .ok ()) :
    ∃ table runners ids, OnePerLine around settings table runners ids := by
  obtain ⟨table, runners, ids, ht, hr, hids, hout⟩ := exists_of_ok h
  have hspelling (hw : WithoutIdWarning around settings) (id : String) (hid : id ∈ ids) :
      Uuid.Spelling id.toList := by
    obtain ⟨name, hm⟩ := exists_machine_of_mem_selection hids hid
    exact spelling_of_withoutIdWarning ht hw hm
  have hdecoded (hw : WithoutIdWarning around settings) :
      decoded (run around settings).output = ids := by
    rw [hout]
    exact decoded_lines_of_not_mem_newline fun id hid => (hspelling hw id hid).not_mem_newline
  refine ⟨table, runners, ids, ht, hr, hids, ?_, ?_, fun hw line hline => ?_, fun hw => ?_⟩
  · rw [hout, pieces_lines, List.getLast?_concat]
  · rw [hout]
    exact decoded_lines_eq_iff
  · rw [hdecoded hw] at hline
    refine ⟨hspelling hw line hline, ?_⟩
    rintro rfl
    exact absurd (hspelling hw _ hline).length_le (by decide)
  · obtain ⟨-, rfl⟩ := selection_eq_ok_iff.mp hids
    rw [hdecoded hw]
    exact (isJoin_flatMap settings.mode runners table).length_eq

/-- A table of one machine whose id is a UUID, and a listing in which its runner is named twice. -/
theorem offline_onePerLine :
    let around : Surroundings :=
      { stdin := .ofBytes (Text.Utf8.encode "[[[\"a\",\"offline\",null],[\"a\",\"offline\",null]]]")
        files := fun _ => .ok (.ofBytes (Text.Utf8.encode
          "[[\"a\",\"14930b12-a780-4dd0-a131-069f5d6024bd\"]]")) }
    let settings : Settings := ⟨.offline, .file "machines.json", .stdin⟩
    (run around settings).outcome = .ok () ∧ WithoutIdWarning around settings ∧
      decoded (run around settings).output =
        ["14930b12-a780-4dd0-a131-069f5d6024bd", "14930b12-a780-4dd0-a131-069f5d6024bd"] ∧
      ∃ table runners ids, OnePerLine around settings table runners ids := by
  intro around settings
  have hrun : (run around settings).outcome = .ok () := by decide +kernel
  have hevents : (settings.machines.load around.files).events = [.tableOpened "machines.json"] := by
    decide +kernel
  refine ⟨hrun, fun name id => ?_, by decide +kernel, run_onePerLine hrun⟩
  rw [hevents]
  simp

end BuildFleet.Run
