import BuildFleet.Json.Reader
import BuildFleet.Selection

/-!
# Selection — what has to be read of a runner

A mode asks something of the status and the busy flag of a runner (`Mode.Wants`); to find out, and to
look up the machines of the runner afterwards, some of its fields have to be read (`Requires`).  A
runner *misses* a field that has to be read and is absent.

* `ofRunner_eq_error_of_firstMissed`: a runner is refused for the first field that it misses, in the order in
  which the fields are read.
* `ofRunner_eq_ok_iff`: a runner that misses nothing contributes the ids of the machines of its name,
  if the mode wants it.
* `ofRunners_eq_error_iff`, `ofRunners_eq_ok_iff`: of several runners the first that misses something
  is reported; if there is none, each contributes its ids in turn.
* `Requires.of_table`, `selection_eq_error_of_table`: of a table, what has to be read depends on no more
  than whether there are machines in it, and so does a failure.
-/

namespace BuildFleet

/-- What a mode asks of the status and the busy flag. -/
def Mode.Wants : Mode → Runner → Prop
  | .onlineNotBusy, r => r.status = some .online ∧ r.busy = some false
  | .onlineBusy, r => r.status = some .online ∧ r.busy = some true
  | .online, r => r.status = some .online
  | .offline, r => r.status = some .offline
  | .unrecognized _, _ => False

instance (mode : Mode) (r : Runner) : Decidable (mode.Wants r) := by
  cases mode <;> unfold Mode.Wants <;> infer_instance

/-- The field is absent. -/
def Runner.Lacks (r : Runner) : RunnerField → Prop
  | .name => r.name = none
  | .status => r.status = none
  | .busy => r.busy = none

/-- The order in which the fields are read: status, busy, name. -/
def RunnerField.rank : RunnerField → Nat
  | .status => 0
  | .busy => 1
  | .name => 2

namespace Selection
open Json (bind_eq_ok)

/-- The field has to be read to tell what the runner contributes. -/
inductive Requires (mode : Mode) (table : Table) (r : Runner) : RunnerField → Prop where
  | status : mode.isRecognized → Requires mode table r .status
  | busy : mode = .onlineNotBusy ∨ mode = .onlineBusy → r.status = some .online →
      Requires mode table r .busy
  | name : mode.isRecognized → table.machines ≠ [] → mode.Wants r → Requires mode table r .name

/-- The field has to be read, and is absent. -/
def Misses (mode : Mode) (table : Table) (r : Runner) (field : RunnerField) : Prop :=
  Requires mode table r field ∧ r.Lacks field

/-- The field is the first of those that have to be read and are absent. -/
def FirstMissed (mode : Mode) (table : Table) (r : Runner) (field : RunnerField) : Prop :=
  Misses mode table r field ∧ ∀ other, other.rank < field.rank → ¬ Misses mode table r other

/-- Every field that has to be read is there. -/
def Complete (mode : Mode) (table : Table) (r : Runner) : Prop :=
  ∀ field, ¬ Misses mode table r field

/-- The ids of the machines that bear the name of the runner, if the mode wants it. -/
def idsOf (mode : Mode) (table : Table) (r : Runner) : List String :=
  if mode.Wants r then (table.machines.filter fun m => r.name = some m.name).map (·.id) else []

variable {mode : Mode} {table : Table} {r : Runner}

/-! ### The fields that may be missed -/

theorem misses_status : Misses mode table r .status ↔ mode.isRecognized ∧ r.status = none :=
  ⟨fun ⟨h, hl⟩ => by cases h with | status h => exact ⟨h, hl⟩, fun ⟨h, hl⟩ => ⟨.status h, hl⟩⟩

theorem misses_busy : Misses mode table r .busy ↔
    (mode = .onlineNotBusy ∨ mode = .onlineBusy) ∧ r.status = some .online ∧ r.busy = none :=
  ⟨fun ⟨h, hl⟩ => by cases h with | busy h hs => exact ⟨h, hs, hl⟩,
    fun ⟨h, hs, hl⟩ => ⟨.busy h hs, hl⟩⟩

theorem misses_name : Misses mode table r .name ↔
    table.machines ≠ [] ∧ mode.Wants r ∧ r.name = none := by
  refine ⟨fun ⟨h, hl⟩ => by cases h with | name _ ht hw => exact ⟨ht, hw, hl⟩, ?_⟩
  rintro ⟨ht, hw, hl⟩
  refine ⟨.name ?_ ht hw, hl⟩
  cases mode with
  | unrecognized => exact hw.elim
  | _ => rfl

theorem complete_iff : Complete mode table r ↔
    ¬ Misses mode table r .status ∧ ¬ Misses mode table r .busy ∧ ¬ Misses mode table r .name :=
  ⟨fun h => ⟨h _, h _, h _⟩, fun ⟨hs, hb, hn⟩ field => by cases field <;> assumption⟩

/-- At most one field is the first. -/
theorem FirstMissed.unique {f g : RunnerField} (hf : FirstMissed mode table r f)
    (hg : FirstMissed mode table r g) : f = g := by
  rcases Nat.lt_trichotomy f.rank g.rank with h | h | h
  · exact absurd hf.1 (hg.2 f h)
  · cases f <;> cases g <;> first | rfl | cases h
  · exact absurd hg.1 (hf.2 g h)

/-! ### One runner -/

theorem misses_status_of_wants (h : mode.Wants r) : ¬ Misses mode table r .status := by
  rw [misses_status]
  rintro ⟨-, hs⟩
  cases mode with
  | unrecognized => exact h
  | onlineNotBusy | onlineBusy => rw [Mode.Wants, hs] at h; cases h.1
  | online | offline => rw [Mode.Wants, hs] at h; cases h

theorem misses_busy_of_wants (h : mode.Wants r) : ¬ Misses mode table r .busy := by
  rw [misses_busy]
  rintro ⟨hm, -, hb⟩
  rcases hm with rfl | rfl
  · rw [Mode.Wants, hb] at h; cases h.2
  · rw [Mode.Wants, hb] at h; cases h.2

/-- A mode selects a runner that it can tell about exactly if it wants it. -/
theorem selects_eq_ok (hs : ¬ Misses mode table r .status) (hb : ¬ Misses mode table r .busy) :
    mode.selects r = .ok (decide (mode.Wants r)) := by
  obtain ⟨name, status, busy⟩ := r
  rw [misses_status] at hs
  rw [misses_busy] at hb
  cases mode with
  | unrecognized => rfl
  | online | offline =>
    rcases status with _ | status
    · exact absurd ⟨rfl, rfl⟩ hs
    · cases status <;> rfl
  | onlineNotBusy | onlineBusy =>
    rcases status with _ | status
    · exact absurd ⟨rfl, rfl⟩ hs
    · cases status with
      | offline => rfl
      | other => rfl
      | online =>
        rcases busy with _ | _ | _
        · exact absurd ⟨by simp, rfl, rfl⟩ hb
        · rfl
        · rfl

theorem selects_eq_error_status (h : Misses mode table r .status) :
    mode.selects r = .error .status := by
  obtain ⟨name, status, busy⟩ := r
  obtain ⟨hm, rfl : status = none⟩ := misses_status.mp h
  cases mode with
  | unrecognized => cases hm
  | _ => rfl

theorem selects_eq_error_busy (h : Misses mode table r .busy) :
    mode.selects r = .error .busy := by
  obtain ⟨name, status, busy⟩ := r
  obtain ⟨hm, rfl : status = some .online, rfl : busy = none⟩ := misses_busy.mp h
  rcases hm with rfl | rfl <;> rfl

theorem ofRunner_eq_error_status (h : Misses mode table r .status) :
    ofRunner mode table r = .error .status := by
  rw [ofRunner, selects_eq_error_status h]; rfl

theorem ofRunner_eq_error_busy (h : Misses mode table r .busy) :
    ofRunner mode table r = .error .busy := by
  rw [ofRunner, selects_eq_error_busy h]; rfl

theorem ofRunner_eq_error_name (h : Misses mode table r .name) :
    ofRunner mode table r = .error .name := by
  obtain ⟨ht, hw, hn⟩ := misses_name.mp h
  have hs : ¬ Misses mode table r .status := misses_status_of_wants hw
  rw [ofRunner, selects_eq_ok hs (misses_busy_of_wants hw)]
  simp [bind, Except.bind, hw, Table.isEmpty, ht, Runner.requireName, hn]

theorem ofRunner_eq_ok (h : Complete mode table r) :
    ofRunner mode table r = .ok (idsOf mode table r) := by
  obtain ⟨hs, hb, hn⟩ := complete_iff.mp h
  rw [ofRunner, selects_eq_ok hs hb, idsOf]
  by_cases hw : mode.Wants r
  · by_cases ht : table.machines = []
    · simp [bind, Except.bind, Table.isEmpty, ht]
    · obtain ⟨name, hname⟩ : ∃ name, r.name = some name :=
        Option.ne_none_iff_exists'.mp fun e => hn (misses_name.mpr ⟨ht, hw, e⟩)
      have hswap : ∀ m : Machine, (m.name == name) = decide (name = m.name) := fun m => by
        rw [Bool.eq_iff_iff, beq_iff_eq, decide_eq_true_eq, eq_comm]
      simp [bind, Except.bind, hw, Table.isEmpty, ht, Runner.requireName, hname, Table.idsNamed,
        hswap]
  · simp [bind, Except.bind, hw]

/-- A runner that the mode wants contributes an id for each machine of its name. -/
theorem length_idsOf (mode : Mode) (t : Table) (r : Runner) :
    (idsOf mode t r).length =
      if mode.Wants r then t.machines.countP fun m => r.name = some m.name else 0 := by
  unfold idsOf
  split
  · rw [List.length_map, List.countP_eq_length_filter]
  · rfl

/-- Of the fields that a runner misses one is the first. -/
theorem exists_firstMissed (h : ¬ Complete mode table r) : ∃ f, FirstMissed mode table r f := by
  by_cases hs : Misses mode table r .status
  · exact ⟨.status, hs, fun g hg => absurd hg (Nat.not_lt_zero _)⟩
  · by_cases hb : Misses mode table r .busy
    · refine ⟨.busy, hb, fun g hg => ?_⟩
      cases g with
      | status => exact hs
      | busy | name => cases hg with | step h => cases h
    · refine ⟨.name, ?_, fun g hg => ?_⟩
      · exact Classical.byContradiction fun hn => h (complete_iff.mpr ⟨hs, hb, hn⟩)
      · cases g with
        | status => exact hs
        | busy => exact hb
        | name => exact absurd hg (Nat.lt_irrefl _)

theorem ofRunner_eq_error_of_firstMissed {f : RunnerField} (h : FirstMissed mode table r f) :
    ofRunner mode table r = .error f := by
  cases f with
  | status => exact ofRunner_eq_error_status h.1
  | busy => exact ofRunner_eq_error_busy h.1
  | name => exact ofRunner_eq_error_name h.1

theorem ofRunner_eq_ok_iff {ids : List String} :
    ofRunner mode table r = .ok ids ↔ Complete mode table r ∧ ids = idsOf mode table r := by
  refine ⟨fun h => ?_, fun ⟨hc, he⟩ => he ▸ ofRunner_eq_ok hc⟩
  by_cases hc : Complete mode table r
  · rw [ofRunner_eq_ok hc] at h
    exact ⟨hc, (Except.ok.inj h).symm⟩
  · obtain ⟨g, hg⟩ := exists_firstMissed hc
    rw [ofRunner_eq_error_of_firstMissed hg] at h
    cases h

/-! ### Several runners -/

theorem mapError_eq_ok {ε ε' α : Type} {f : ε → ε'} {x : Except ε α} {v : α} :
    x.mapError f = .ok v ↔ x = .ok v := by
  cases x with
  | error => exact ⟨(nomatch ·), (nomatch ·)⟩
  | ok =>
    refine ⟨fun h => ?_, fun h => ?_⟩
    · cases h
      rfl
    · cases h
      rfl

/-- The runner at this index is the first that misses something, and this field the first that it
misses. -/
def FirstIncomplete (mode : Mode) (table : Table) (runners : List Runner) (index : Nat)
    (field : RunnerField) : Prop :=
  (∃ r, runners[index]? = some r ∧ FirstMissed mode table r field) ∧
    ∀ earlier r, earlier < index → runners[earlier]? = some r → Complete mode table r

theorem firstIncomplete_cons_zero {rest : List Runner} {field : RunnerField} :
    FirstIncomplete mode table (r :: rest) 0 field ↔ FirstMissed mode table r field := by
  simp [FirstIncomplete]

theorem firstIncomplete_cons_succ {rest : List Runner} {index : Nat} {field : RunnerField} :
    FirstIncomplete mode table (r :: rest) (index + 1) field ↔
      Complete mode table r ∧ FirstIncomplete mode table rest index field := by
  refine ⟨fun ⟨hf, he⟩ => ⟨he 0 r (Nat.succ_pos _) rfl, hf,
    fun i r' hi hr => he (i + 1) r' (Nat.succ_lt_succ hi) hr⟩, fun ⟨hc, hf, he⟩ => ⟨hf, ?_⟩⟩
  intro i r' hi hr
  cases i with
  | zero => cases hr; exact hc
  | succ i => exact he i r' (Nat.lt_of_succ_lt_succ hi) hr

theorem ofRunners_eq_error_iff {start : Nat} {runners : List Runner} {failure : Failure} :
    ofRunners mode table start runners = .error failure ↔
      ∃ index field, FirstIncomplete mode table runners index field ∧
        failure = .missingRunnerField (start + index) field := by
  induction runners generalizing start with
  | nil => simp [ofRunners, FirstIncomplete]
  | cons r rest ih =>
    by_cases hc : Complete mode table r
    · rw [ofRunners, ofRunner_eq_ok hc]
      have hfirst : ∀ f, ¬ FirstMissed mode table r f := fun f hf => hc f hf.1
      refine ⟨?_, ?_⟩
      · intro h
        cases hm : ofRunners mode table (start + 1) rest with
        | ok more => rw [hm] at h; cases h
        | error e =>
          rw [hm] at h
          cases h
          obtain ⟨i, f, hi, rfl⟩ := ih.mp hm
          refine ⟨i + 1, f, firstIncomplete_cons_succ.mpr ⟨hc, hi⟩, ?_⟩
          rw [Nat.add_right_comm, Nat.add_assoc]
      · rintro ⟨i, f, hi, rfl⟩
        cases i with
        | zero => exact absurd (firstIncomplete_cons_zero.mp hi) (hfirst f)
        | succ i =>
          have hi' := (firstIncomplete_cons_succ.mp hi).2
          rw [ih.mpr ⟨i, f, hi', Nat.add_right_comm start 1 i ▸ rfl⟩]
          rfl
    · obtain ⟨g, hg⟩ := exists_firstMissed hc
      rw [ofRunners, ofRunner_eq_error_of_firstMissed hg]
      refine ⟨?_, ?_⟩
      · intro h
        cases h
        exact ⟨0, g, firstIncomplete_cons_zero.mpr hg, rfl⟩
      · rintro ⟨i, f, hi, rfl⟩
        cases i with
        | zero =>
          rw [(firstIncomplete_cons_zero.mp hi).unique hg]
          rfl
        | succ i => exact absurd (firstIncomplete_cons_succ.mp hi).1 hc

theorem ofRunners_eq_ok_iff {start : Nat} {runners : List Runner} {ids : List String} :
    ofRunners mode table start runners = .ok ids ↔
      (∀ r ∈ runners, Complete mode table r) ∧ ids = runners.flatMap (idsOf mode table) := by
  induction runners generalizing start ids with
  | nil => simp [ofRunners, eq_comm]
  | cons r rest ih =>
    rw [List.forall_mem_cons, List.flatMap_cons]
    refine ⟨?_, ?_⟩
    · intro h
      obtain ⟨own, hown, h⟩ := bind_eq_ok.mp h
      obtain ⟨more, hmore, h⟩ := bind_eq_ok.mp h
      cases h
      obtain ⟨hrest, rfl⟩ := ih.mp hmore
      obtain ⟨hc, rfl⟩ := ofRunner_eq_ok_iff.mp (mapError_eq_ok.mp hown)
      exact ⟨⟨hc, hrest⟩, rfl⟩
    · rintro ⟨⟨hc, hrest⟩, rfl⟩
      have hmore : ofRunners mode table (start + 1) rest = .ok (rest.flatMap (idsOf mode table)) :=
        ih.mpr ⟨hrest, rfl⟩
      rw [ofRunners, ofRunner_eq_ok hc, hmore]
      rfl

/-! ### Selections -/

theorem selection_eq_error_iff {runners : List Runner} {failure : Failure} :
    selection mode runners table = .error failure ↔
      ∃ index field, FirstIncomplete mode table runners index field ∧
        failure = .missingRunnerField index field := by
  simp only [selection, ofRunners_eq_error_iff, Nat.zero_add]

theorem selection_eq_ok_iff {runners : List Runner} {ids : List String} :
    selection mode runners table = .ok ids ↔
      (∀ r ∈ runners, Complete mode table r) ∧ ids = runners.flatMap (idsOf mode table) :=
  ofRunners_eq_ok_iff

/-- There is a selection exactly if nothing is missed. -/
theorem exists_selection_iff {runners : List Runner} :
    (∃ ids, selection mode runners table = .ok ids) ↔ ∀ r ∈ runners, Complete mode table r := by
  refine ⟨?_, fun h => ⟨_, selection_eq_ok_iff.mpr ⟨h, rfl⟩⟩⟩
  rintro ⟨ids, hids⟩
  exact (selection_eq_ok_iff.mp hids).1

/-! ### Other tables -/

section Tables

variable {t t' : Table}

/-- A table is asked for nothing but whether it has machines, to tell what has to be read. -/
theorem Requires.of_table (h : t.machines = [] ↔ t'.machines = []) {field : RunnerField} :
    Requires mode t r field ↔ Requires mode t' r field := by
  refine ⟨fun hr => ?_, fun hr => ?_⟩
  · cases hr with
    | status hm => exact .status hm
    | busy hm ho => exact .busy hm ho
    | name hm ht hw => exact .name hm (mt h.mpr ht) hw
  · cases hr with
    | status hm => exact .status hm
    | busy hm ho => exact .busy hm ho
    | name hm ht hw => exact .name hm (mt h.mp ht) hw

theorem Misses.of_table (h : t.machines = [] ↔ t'.machines = []) {field : RunnerField} :
    Misses mode t r field ↔ Misses mode t' r field :=
  and_congr_left' (Requires.of_table h)

theorem Complete.of_table (h : t.machines = [] ↔ t'.machines = []) :
    Complete mode t r ↔ Complete mode t' r :=
  forall_congr' fun _ => not_congr (Misses.of_table h)

theorem FirstIncomplete.of_table (h : t.machines = [] ↔ t'.machines = []) {runners : List Runner}
    {index : Nat} {field : RunnerField} :
    FirstIncomplete mode t runners index field ↔ FirstIncomplete mode t' runners index field := by
  simp only [FirstIncomplete, FirstMissed, Misses.of_table h, Complete.of_table h]

/-- Tables of which both are empty or neither leave the same failure. -/
theorem selection_eq_error_of_table (h : t.machines = [] ↔ t'.machines = []) {runners : List Runner}
    {failure : Failure} :
    selection mode runners t = .error failure ↔ selection mode runners t' = .error failure := by
  simp only [selection_eq_error_iff, FirstIncomplete.of_table h]

end Tables

end Selection

end BuildFleet
