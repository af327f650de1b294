import BuildFleet.Proofs.Machine.Loading

/-!
# Machines — the ids that are warned about

Loading a table warns about every id that is not a UUID, and about no other
(`TableSource.idNotUuid_mem_load`).
-/

namespace BuildFleet

namespace Table

variable {name id : String}

theorem idNotUuid_mem_machineWarnings {earlier : List String} {m : Machine} :
    .idNotUuid name id ∈ machineWarnings earlier m ↔ m = ⟨name, id⟩ ∧ Uuid.isUuid id = false := by
  have hrepeated : ∀ (c : Bool) (other : String),
      .idNotUuid name id ∉ if c then [Event.nameRepeated other] else [] := by
    intro c other
    cases c <;> simp
  obtain ⟨name', id'⟩ := m
  rw [machineWarnings, List.mem_append, or_iff_left (hrepeated _ _)]
  cases h : Uuid.isUuid id' with
  | true =>
    refine iff_of_false (by simp) ?_
    rintro ⟨he, hid⟩
    cases he
    cases h.symm.trans hid
  | false =>
    simp only [Bool.false_eq_true, if_false, List.mem_singleton, Event.idNotUuid.injEq,
      Machine.mk.injEq]
    refine ⟨?_, ?_⟩
    · rintro ⟨rfl, rfl⟩
      exact ⟨⟨rfl, rfl⟩, h⟩
    · rintro ⟨⟨rfl, rfl⟩, -⟩
      exact ⟨rfl, rfl⟩

theorem idNotUuid_mem_warningsAfter {machines : List Machine} {earlier : List String} :
    .idNotUuid name id ∈ warningsAfter earlier machines ↔
      ⟨name, id⟩ ∈ machines ∧ Uuid.isUuid id = false := by
  induction machines generalizing earlier with
  | nil => simp [warningsAfter]
  | cons m rest ih =>
    rw [warningsAfter, List.mem_append, ih, idNotUuid_mem_machineWarnings, List.mem_cons, or_and_right,
      @eq_comm _ m]

theorem idNotUuid_mem_warnings {t : Table} :
    .idNotUuid name id ∈ warnings t ↔ ⟨name, id⟩ ∈ t.machines ∧ Uuid.isUuid id = false := by
  have hempty : .idNotUuid name id ∉ if t.isEmpty then [Event.tableEmpty] else [] := by
    split <;> simp
  rw [warnings, List.mem_append, or_iff_right hempty, idNotUuid_mem_warningsAfter]

/-- A table that is read is what its warnings are about. -/
theorem events_of_read {input : Json.Input} {t : Table} (h : (read input).outcome = .ok t) :
    (read input).events = warnings t := by
  cases hp : Machine.record.reader.list.parse input with
  | error error =>
    rw [read_of_error hp] at h
    cases h
  | ok machines =>
    rw [read_of_ok hp] at h ⊢
    cases h
    rfl

end Table

/-- **Loading a table warns about the ids that are not UUIDs.** -/
theorem TableSource.idNotUuid_mem_load {files : Files} {source : TableSource} {t : Table}
    (h : (source.load files).outcome = .ok t) {name id : String} :
    .idNotUuid name id ∈ (source.load files).events ↔
      ⟨name, id⟩ ∈ t.machines ∧ Uuid.isUuid id = false := by
  rw [← Table.idNotUuid_mem_warnings]
  cases source with
  | builtin =>
    have hread : (Table.read (.ofString Table.builtinText)).outcome = .ok t := h
    show _ ∈ (Table.read (.ofString Table.builtinText)).events ↔ _
    rw [Table.events_of_read hread]
  | file path =>
    change (Table.load files path).outcome = .ok t at h
    show _ ∈ (Table.load files path).events ↔ _
    cases hf : files path with
    | error error =>
      rw [Table.load_of_error hf] at h
      cases h
    | ok input =>
      rw [Table.load_outcome_of_ok hf] at h
      have hevents : (Table.load files path).events = .tableOpened path :: Table.warnings t := by
        rw [Table.load, hf, ← Table.events_of_read h]
        rfl
      simp [hevents]

end BuildFleet
