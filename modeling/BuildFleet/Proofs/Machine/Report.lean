import Mathlib.Data.Finset.Card
import BuildFleet.Proofs.Machine.Warnings
import BuildFleet.Proofs.Selection.Required
import BuildFleet.Proofs.Uuid

/-!
# Machines — what is said about a table

A table is read from one machine to the next, with the names met so far in hand.  What is said about it
can be told from each machine and those in front of it alone (`warningsAt`).

* `warnings_eq`: the warnings, machine by machine.
* `countP_nameRepeated`: there is one about a name for each machine that is not the first of its name.
* `length_idsNamed_le_one`: where names do not occur again, a runner stands for one machine at most.
* `read_reported`: a table that is read is what the text holds, and this is all that is said about it.
-/

namespace BuildFleet

/-- The event is about a name that occurs again. -/
def Event.isNameRepeated : Event → Bool
  | .nameRepeated _ => true
  | _ => false

namespace Table

/-- What is said about the machine in a place: whether its id is no UUID, and whether a machine in front
of it has its name. -/
def warningsAt (machines : List Machine) (place : Nat) (m : Machine) : List Event :=
  (if Uuid.Spelling m.id.toList then [] else [.idNotUuid m.name m.id]) ++
    (if ∃ earlier ∈ machines.take place, earlier.name = m.name then [.nameRepeated m.name] else [])

variable {machines : List Machine} {earlier : List String} {t : Table}

/-! ### Machine by machine -/

theorem machineWarnings_eq (front rest : List Machine) (m : Machine) :
    machineWarnings (front.map (·.name)).reverse m = warningsAt (front ++ rest) front.length m := by
  rw [machineWarnings, warningsAt, List.take_left]
  refine congr_arg₂ (· ++ ·) ?_ (if_congr ?_ rfl rfl)
  · exact if_congr Uuid.isUuid_iff rfl rfl
  · rw [List.contains_iff_mem, List.mem_reverse, List.mem_map]

/-- The machines in front are those whose names have been met. -/
theorem warningsAfter_eq (front rest : List Machine) :
    warningsAfter (front.map (·.name)).reverse rest =
      (rest.zipIdx front.length).flatMap fun p => warningsAt (front ++ rest) p.2 p.1 := by
  induction rest generalizing front with
  | nil => rfl
  | cons m rest ih =>
    have hnext := ih (front ++ [m])
    rw [List.map_append, List.reverse_append, List.length_append, List.append_assoc] at hnext
    rw [warningsAfter, machineWarnings_eq front (m :: rest), List.zipIdx_cons, List.flatMap_cons]
    exact congrArg _ hnext

theorem warnings_eq (t : Table) :
    warnings t = (if t.machines = [] then [.tableEmpty] else []) ++
      t.machines.zipIdx.flatMap fun p => warningsAt t.machines p.2 p.1 := by
  have hmachines := warningsAfter_eq [] t.machines
  rw [warnings, isEmpty]
  exact congr_arg₂ (· ++ ·) (if_congr List.isEmpty_iff rfl rfl) hmachines

/-- There are no other warnings than about the table as a whole, about ids and about names. -/
theorem mem_warnings_cases {event : Event} (h : event ∈ warnings t) :
    event = .tableEmpty ∧ t.machines = [] ∨ (∃ name id, event = .idNotUuid name id) ∨
      ∃ name, event = .nameRepeated name := by
  rw [warnings_eq, List.mem_append, List.mem_flatMap] at h
  rcases h with h | ⟨p, -, h⟩
  · split at h
    case isTrue ht => exact .inl ⟨List.mem_singleton.mp h, ht⟩
    case isFalse => cases h
  · rcases List.mem_append.mp h with h | h
    · split at h
      · cases h
      · exact .inr (.inl ⟨_, _, List.mem_singleton.mp h⟩)
    · split at h
      · exact .inr (.inr ⟨_, List.mem_singleton.mp h⟩)
      · cases h

theorem level_of_mem_warnings {event : Event} (h : event ∈ warnings t) : event.level = .warn := by
  rcases mem_warnings_cases h with ⟨rfl, -⟩ | ⟨_, _, rfl⟩ | ⟨_, rfl⟩ <;> rfl

/-! ### Names that occur again -/

theorem countP_machineWarnings (earlier : List String) (m : Machine) :
    (machineWarnings earlier m).countP Event.isNameRepeated = if m.name ∈ earlier then 1 else 0 := by
  have hid : (if Uuid.isUuid m.id then [] else [Event.idNotUuid m.name m.id]).countP
      Event.isNameRepeated = 0 := by
    split <;> rfl
  rw [machineWarnings, List.countP_append, hid, Nat.zero_add]
  by_cases hm : m.name ∈ earlier
  · rw [if_pos hm, if_pos (List.contains_iff_mem.mpr hm)]
    rfl
  · rw [if_neg hm, if_neg (mt List.contains_iff_mem.mp hm)]
    rfl

/-- Each machine bears a name that is new, or it is warned about. -/
theorem countP_warningsAfter (earlier : List String) (machines : List Machine) :
    (warningsAfter earlier machines).countP Event.isNameRepeated +
        (earlier.toFinset ∪ (machines.map (·.name)).toFinset).card =
      earlier.toFinset.card + machines.length := by
  induction machines generalizing earlier with
  | nil => simp [warningsAfter]
  | cons m rest ih =>
    have hrest := ih (m.name :: earlier)
    rw [List.toFinset_cons, Finset.insert_union] at hrest
    rw [warningsAfter, List.countP_append, countP_machineWarnings, List.map_cons, List.toFinset_cons,
      Finset.union_insert, List.length_cons]
    by_cases hm : m.name ∈ earlier
    · rw [Finset.insert_eq_of_mem (List.mem_toFinset.mpr hm)] at hrest
      rw [if_pos hm]
      omega
    · rw [Finset.card_insert_of_notMem (mt List.mem_toFinset.mp hm)] at hrest
      rw [if_neg hm]
      omega

/-- The machines are as many as their names, and the warnings about these. -/
theorem countP_nameRepeated (t : Table) :
    (warnings t).countP Event.isNameRepeated + (t.machines.map (·.name)).toFinset.card =
      t.machines.length := by
  have hempty : (if t.isEmpty then [Event.tableEmpty] else []).countP Event.isNameRepeated = 0 := by
    split <;> rfl
  have hmachines := countP_warningsAfter [] t.machines
  rw [List.toFinset_nil, Finset.empty_union, Finset.card_empty, Nat.zero_add] at hmachines
  rw [warnings, List.countP_append, hempty, Nat.zero_add, hmachines]

theorem nodup_names_iff :
    (t.machines.map (·.name)).Nodup ↔ ∀ name, .nameRepeated name ∉ warnings t := by
  have hcount := countP_nameRepeated t
  have hnone : (warnings t).countP Event.isNameRepeated = 0 ↔
      ∀ name, .nameRepeated name ∉ warnings t := by
    rw [List.countP_eq_zero]
    refine ⟨fun h name hm => h _ hm rfl, fun h event hm he => ?_⟩
    cases event with
    | nameRepeated name => exact h name hm
    | _ => cases he
  rw [← hnone, ← Multiset.coe_nodup, ← Multiset.toFinset_card_eq_card_iff_nodup]
  show (t.machines.map (·.name)).toFinset.card = (t.machines.map (·.name)).length ↔ _
  rw [List.length_map]
  omega

/-- Nothing is said about a table only if nothing about it looks like a mistake. -/
theorem warnings_eq_nil_iff :
    warnings t = [] ↔ t.machines ≠ [] ∧ (∀ m ∈ t.machines, Uuid.Spelling m.id.toList) ∧
      (t.machines.map (·.name)).Nodup := by
  rw [nodup_names_iff]
  refine ⟨fun h => ⟨fun ht => ?_, fun m hm => ?_, fun name => h ▸ List.not_mem_nil⟩, ?_⟩
  · rw [warnings_eq, if_pos ht] at h
    cases h
  · rw [← Uuid.isUuid_iff, ← Bool.not_eq_false]
    intro hid
    have hmem := idNotUuid_mem_warnings.mpr ⟨hm, hid⟩
    rw [h] at hmem
    cases hmem
  · rintro ⟨hne, hids, hnames⟩
    refine List.eq_nil_iff_forall_not_mem.mpr fun event he => ?_
    rcases mem_warnings_cases he with ⟨-, ht⟩ | ⟨name, id, rfl⟩ | ⟨name, rfl⟩
    · exact hne ht
    · obtain ⟨hm, hid⟩ := idNotUuid_mem_warnings.mp he
      rw [Uuid.isUuid_iff.mpr (hids _ hm)] at hid
      cases hid
    · exact hnames name he

/-! ### What names that do not occur again mean for a selection -/

theorem countP_name_le_one (h : (t.machines.map (·.name)).Nodup) (name : String) :
    t.machines.countP (fun m => m.name == name) ≤ 1 := by
  have hcount := List.nodup_iff_count_le_one.mp h name
  rwa [List.count, List.countP_map] at hcount

theorem length_idsNamed_le_one (h : (t.machines.map (·.name)).Nodup) (name : String) :
    (t.idsNamed name).length ≤ 1 := by
  rw [idsNamed, List.length_map, ← List.countP_eq_length_filter]
  exact countP_name_le_one h name

/-- A runner that the mode wants stands for one machine at most, and any other for none. -/
theorem length_idsOf_le (h : (t.machines.map (·.name)).Nodup) (mode : Mode) (r : Runner) :
    (Selection.idsOf mode t r).length ≤ if mode.Wants r then 1 else 0 := by
  rw [Selection.length_idsOf]
  split
  · cases hr : r.name with
    | none => simp
    | some name => simpa [eq_comm, beq_eq_decide] using countP_name_le_one h name
  · exact Nat.le_refl 0

theorem length_flatMap_idsOf_le (h : (t.machines.map (·.name)).Nodup) (mode : Mode)
    (runners : List Runner) :
    (runners.flatMap (Selection.idsOf mode t)).length ≤ runners.countP (mode.Wants ·) := by
  induction runners with
  | nil => exact Nat.le_refl 0
  | cons r rest ih =>
    have hr := length_idsOf_le h mode r
    simp only [List.flatMap_cons, List.length_append, List.countP_cons, decide_eq_true_eq]
    omega

/-! ### Reading a table -/

/-- These events are all that is said about a table. -/
structure Reported (t : Table) (events : List Event) : Prop where
  /-- They say that it is empty, or what there is to be said about each machine, in order. -/
  said : events = (if t.machines = [] then [.tableEmpty] else []) ++
    t.machines.zipIdx.flatMap fun p => warningsAt t.machines p.2 p.1
  /-- All of them are warnings. -/
  level : ∀ event ∈ events, event.level = .warn
  /-- One of them is about its name for each machine but the first of each name. -/
  repeated : events.countP Event.isNameRepeated + (t.machines.map (·.name)).toFinset.card =
    t.machines.length
  /-- There are none if there are machines, with UUIDs for ids, and each under a name of its own. -/
  silent : events = [] ↔ t.machines ≠ [] ∧ (∀ m ∈ t.machines, Uuid.Spelling m.id.toList) ∧
    (t.machines.map (·.name)).Nodup
  /-- If none is about a name, no name has two ids, and no runner two machines. -/
  unique : (∀ name, .nameRepeated name ∉ events) →
    (∀ name, (t.idsNamed name).length ≤ 1) ∧
      ∀ mode runners ids, selection mode runners t = .ok ids →
        ids.length ≤ runners.countP (mode.Wants ·)

/-- **What is said about a table that is read.**  A text that is a table is read as what it holds, be it in
memory or a stream, and the warnings are about that, and about nothing else. -/
theorem read_reported {input : Json.Input} (hclosed : input.ending = .closed)
    (h : WellShaped t input.bytes) :
    (read input).outcome = .ok t ∧ t.Reported (read input).events := by
  have hparse : Machine.record.reader.list.parse input = .ok t.machines := by
    rw [Json.Reader.parse_eq_ok_iff, hclosed]
    exact reader_reads.readAll_eq_ok_iff.mpr h
  rw [read_of_ok hparse]
  refine ⟨rfl, warnings_eq t, fun _ => level_of_mem_warnings, countP_nameRepeated t,
    warnings_eq_nil_iff, fun hnames => ?_⟩
  have hnodup := nodup_names_iff.mpr hnames
  refine ⟨length_idsNamed_le_one hnodup, fun mode runners ids hids => ?_⟩
  obtain ⟨-, rfl⟩ := Selection.selection_eq_ok_iff.mp hids
  exact length_flatMap_idsOf_le hnodup mode runners

/-- Three machines of one name and one of another, of which one id is a UUID, in a stream; and in memory. -/
theorem read_reported_triplets :
    let text := "[[\"a\",\"x\"],[\"b\",\"14930b12-a780-4dd0-a131-069f5d6024bd\"]," ++
      "[\"a\",\"\"],[\"a\",\"x\"]]"
    let t : Table :=
      ⟨[⟨"a", "x"⟩, ⟨"b", "14930b12-a780-4dd0-a131-069f5d6024bd"⟩, ⟨"a", ""⟩, ⟨"a", "x"⟩]⟩
    let events : List Event :=
      [.idNotUuid "a" "x", .idNotUuid "a" "", .nameRepeated "a", .idNotUuid "a" "x", .nameRepeated "a"]
    WellShaped t (Text.Utf8.encode text) ∧
      ((read (.ofBytes (Text.Utf8.encode text))).outcome = .ok t ∧ t.Reported events) ∧
      (read (.ofString text)).outcome = .ok t ∧ t.Reported events := by
  intro text t events
  have hshape : WellShaped t (Text.Utf8.encode text) := wellShaped_iff.mpr (by decide +kernel)
  have hevents : (read (.ofBytes (Text.Utf8.encode text))).events = events := by decide +kernel
  have hevents' : (read (.ofString text)).events = events := by decide +kernel
  refine ⟨hshape, ?_, ?_⟩
  · rw [← hevents]
    exact read_reported rfl hshape
  · rw [← hevents']
    exact read_reported rfl hshape

end Table

end BuildFleet
