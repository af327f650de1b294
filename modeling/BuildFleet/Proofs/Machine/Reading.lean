import BuildFleet.Machine.Reading
import BuildFleet.Proofs.Json.Records

/-!
# Machines — the tables that are read

What a table looks like, and that it is read if it does.

* `MachineText`: the texts of a machine, an object or a list of two.
* `Table.WellShaped`: the texts of a table, with the machines that it holds, in order and as they are
  spelled.
* `Table.read_iff_shape`: of all bytes, those are read that are well shaped, and the result is what
  they hold; all others are no table, and nothing is said about them but that.

The name and the id of a machine are required, so the fields read so far are optional values, of which
a table has none that is absent (`Machine.build_eq_ok_iff`).
-/

namespace BuildFleet
open Json

/-! ### The grammar -/

/-- The texts of a machine. -/
inductive MachineText (m : Machine) : Bytes → Prop where
  /-- Members in any order, of which one has the key of the name and one that of the id. -/
  | object {members : List (String × Bytes)} {name id text : Bytes} : ObjectText members text →
      Others (fun key => key = "name" ∨ key = "id") members →
      members.filter (·.1 = "name") = [("name", name)] → StringLiteral m.name name →
      members.filter (·.1 = "id") = [("id", id)] → StringLiteral m.id id → MachineText m text
  /-- Exactly the name and the id, in this order. -/
  | list {name id text : Bytes} : ListText (· = ·) [name, id] text → StringLiteral m.name name →
      StringLiteral m.id id → MachineText m text

/-- Bytes that are a list of machines, with blanks around it. -/
def Table.WellShaped (t : Table) (bytes : Bytes) : Prop :=
  ∃ before text after, Blanks before ∧ ListText MachineText t.machines text ∧ Blanks after ∧
    bytes = before ++ text ++ after

/-! ### Required fields -/

theorem Json.Reader.map_map {α β γ : Type} (r : Reader α) (f : α → β) (g : β → γ) :
    (r.map f).map g = r.map fun v => g (f v) := by
  refine Reader.ext ?_ ?_
  · funext σ _
    show (r.parser >>= fun v => pure (f v)) >>= _ = r.parser >>= _
    rw [bind_assoc]
    rfl
  · funext e bytes
    show (r.read e bytes >>= _) >>= _ = r.read e bytes >>= _
    cases r.read e bytes <;> rfl

/-- The spellings of a value that is there. -/
def Given {α : Type} (Spells : α → Bytes → Prop) (v : Option α) (text : Bytes) : Prop :=
  ∃ w, Spells w text ∧ some w = v

theorem given_some_iff {α : Type} {Spells : α → Bytes → Prop} {w : α} {text : Bytes} :
    Given Spells (some w) text ↔ Spells w text := by
  simp [Given]

/-- A field that has a value is spelled by the only member with its key. -/
theorem fieldText_given_iff {α : Type} {Spells : α → Bytes → Prop} {key : String}
    {members : List (String × Bytes)} {w : α} :
    FieldText key (Given Spells) none members (some w) ↔
      ∃ text, members.filter (·.1 = key) = [(key, text)] ∧ Spells w text := by
  refine ⟨fun h => ?_, ?_⟩
  · cases h with
    | present hm hs => exact ⟨_, hm, given_some_iff.mp hs⟩
  · rintro ⟨text, hm, hs⟩
    exact .present hm (given_some_iff.mpr hs)

/-! ### Machines -/

/-- The fields of a machine. -/
inductive MachineField where
  | name
  | id
  deriving DecidableEq

/-- How the fields of a machine are spelled. -/
def Machine.layout : Layout Machine.record where
  Index := MachineField
  order := [.name, .id]
  key
    | .name => "name"
    | .id => "id"
  Part _ := Option String
  Spells _ := Given StringLiteral
  get
    | .name => PartialMachine.name
    | .id => PartialMachine.id
  set
    | .name => fun name m => { m with name }
    | .id => fun id m => { m with id }
  reader _ := Reader.string.map some
  reads _ := Reader.string_reads.map some
  fields_eq := by
    simp only [Machine.record, List.map_cons, List.map_nil, Reader.map_map]
  mem_order i := by cases i <;> decide
  nodup_order := by decide
  key_injective {i j} h := by
    cases i <;> cases j <;> first | rfl | exact absurd h (by decide)
  get_set {i v s} := by cases i <;> rfl
  get_set_of_ne {i j v s} h := by
    cases i <;> cases j <;> first | rfl | exact absurd rfl h
  ext {s s'} h := by
    cases s
    cases s'
    have hn := h .name
    have hi := h .id
    dsimp only at hn hi
    rw [hn, hi]

/-- A machine is built from a name and an id, if both are there. -/
theorem Machine.build_eq_ok_iff {s : PartialMachine} {m : Machine} :
    Machine.record.build s = .ok m ↔ s.name = some m.name ∧ s.id = some m.id := by
  obtain ⟨name, id⟩ := s
  obtain ⟨name', id'⟩ := m
  cases name <;> cases id <;> simp [Machine.record]

theorem machineText_iff {m : Machine} {text : Bytes} :
    MachineText m text ↔ ∃ s, Machine.layout.Filled s text ∧ Machine.record.build s = .ok m := by
  have hothers : ∀ members, Others (fun key => key = "name" ∨ key = "id") members ↔
      Others Machine.layout.Known members := by
    intro members
    have hk : ∀ key, Machine.layout.Known key ↔ key = "name" ∨ key = "id" := by
      intro key
      refine ⟨?_, ?_⟩
      · rintro ⟨i, rfl⟩
        cases i with
        | name => exact .inl rfl
        | id => exact .inr rfl
      · rintro (rfl | rfl)
        · exact ⟨.name, rfl⟩
        · exact ⟨.id, rfl⟩
    simp only [Others, hk]
  refine ⟨fun h => ⟨⟨some m.name, some m.id⟩, ?_, Machine.build_eq_ok_iff.mpr ⟨rfl, rfl⟩⟩, ?_⟩
  · cases h with
    | object ho hm hname hn hid hi =>
      refine .object ho ((hothers _).mp hm) fun i => ?_
      cases i with
      | name => exact fieldText_given_iff.mpr ⟨_, hname, hn⟩
      | id => exact fieldText_given_iff.mpr ⟨_, hid, hi⟩
    | list hl hn hi =>
      exact .list hl (.cons (given_some_iff.mpr hn) (.cons (given_some_iff.mpr hi) .nil))
  · rintro ⟨s, hf, hb⟩
    obtain ⟨name, id⟩ := s
    obtain ⟨rfl : name = some m.name, rfl : id = some m.id⟩ := Machine.build_eq_ok_iff.mp hb
    cases hf with
    | object ho hm hfields =>
      obtain ⟨ntext, hname, hn⟩ := fieldText_given_iff.mp (hfields .name)
      obtain ⟨itext, hid, hi⟩ := fieldText_given_iff.mp (hfields .id)
      exact .object ho ((hothers _).mpr hm) hname hn hid hi
    | list hl hall =>
      cases hall with
      | cons hn hall =>
        cases hall with
        | cons hi hall =>
          cases hall
          exact .list hl (given_some_iff.mp hn) (given_some_iff.mp hi)

theorem Machine.reader_reads : Machine.record.reader.Reads MachineText :=
  Machine.layout.record_reads.congr fun _ _ => machineText_iff.symm

/-! ### Tables -/

namespace Table

theorem reader_reads : Machine.record.reader.list.Reads (ListText MachineText) :=
  Reader.list_reads Machine.reader_reads

theorem wellShaped_iff {t : Table} {bytes : Bytes} :
    WellShaped t bytes ↔ Machine.record.reader.list.parse (.ofBytes bytes) = .ok t.machines :=
  reader_reads.parse_ofBytes_eq_ok_iff.symm

theorem read_of_ok {input : Input} {machines : List Machine}
    (h : Machine.record.reader.list.parse input = .ok machines) :
    read input = ⟨warnings ⟨machines⟩, "", .ok ⟨machines⟩⟩ := by
  rw [read, h]
  show Attempt.mk (warnings ⟨machines⟩ ++ []) _ _ = _
  rw [List.append_nil]
  rfl

theorem read_of_error {input : Input} {error : Json.Error}
    (h : Machine.record.reader.list.parse input = .error error) :
    read input = .fail (.invalidTable error) := by
  rw [read, h]

/-- Bytes are a table, and are read as what they hold, or they are no table; then nothing has been
logged. -/
theorem read_iff_shape (bytes : Bytes) :
    (∀ t, (read (.ofBytes bytes)).outcome = .ok t ↔ WellShaped t bytes) ∧
    (∀ t, read (.ofBytes bytes) = ⟨warnings t, "", .ok t⟩ ↔ WellShaped t bytes) ∧
    ((∃ error, (read (.ofBytes bytes)).outcome = .error (.invalidTable error) ∧
      (read (.ofBytes bytes)).events = []) ↔ ∀ t, ¬ WellShaped t bytes) := by
  simp only [wellShaped_iff]
  rcases h : Machine.record.reader.list.parse (.ofBytes bytes) with error | machines
  · rw [read_of_error h]
    refine ⟨fun t => ?_, fun t => ?_, ?_⟩
    · exact iff_of_false (fun hr => by cases hr) (fun hr => by cases hr)
    · exact iff_of_false (fun hr => by cases congrArg Attempt.outcome hr) (fun hr => by cases hr)
    · exact iff_of_true ⟨error, rfl, rfl⟩ (fun t ht => by cases ht)
  · rw [read_of_ok h]
    refine ⟨fun t => ⟨fun hr => ?_, fun hr => ?_⟩, fun t => ⟨fun hr => ?_, fun hr => ?_⟩, ?_⟩
    · cases hr
      rfl
    · cases hr
      rfl
    · cases congrArg Attempt.outcome hr
      rfl
    · cases hr
      rfl
    · refine iff_of_false ?_ fun hr => hr ⟨machines⟩ rfl
      rintro ⟨error, hr, -⟩
      cases hr

end Table

end BuildFleet
