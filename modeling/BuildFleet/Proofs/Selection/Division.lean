import Mathlib.Data.List.Basic
import BuildFleet.Proofs.Selection.Required

/-!
# Selection — idle and busy runners

A runner that is online is either idle or busy, as far as it says so.  So the selection of the runners
that are online is that of the idle ones and that of the busy ones, put together in the order of the
runners; and it has nothing to do with the runners that are offline.

* `complete_idle_busy_iff`: what has to be read of a runner to tell whether it is idle, and whether it
  is busy, is what has to be read to tell whether it is online, and the busy flag if it is.
* `contributions`: the ids of a selection, each with the position of the runner that it is owed to.
* `online_divides`: the modes compared over all runners, with their failures, their ids, and the
  runners behind these.
-/

namespace BuildFleet.Selection

variable {mode : Mode} {table : Table} {r : Runner} {runners : List Runner}

/-! ### When there is a selection -/

theorem complete_online_iff : Complete .online table r ↔
    r.status ≠ none ∧ (table.machines ≠ [] → r.status = some .online → r.name ≠ none) := by
  simp [complete_iff, misses_status, misses_busy, misses_name, Mode.isRecognized, Mode.Wants]

theorem complete_onlineNotBusy_iff : Complete .onlineNotBusy table r ↔
    r.status ≠ none ∧ (r.status = some .online → r.busy ≠ none) ∧
      (table.machines ≠ [] → r.status = some .online → r.busy = some false → r.name ≠ none) := by
  simp [complete_iff, misses_status, misses_busy, misses_name, Mode.isRecognized, Mode.Wants]

theorem complete_onlineBusy_iff : Complete .onlineBusy table r ↔
    r.status ≠ none ∧ (r.status = some .online → r.busy ≠ none) ∧
      (table.machines ≠ [] → r.status = some .online → r.busy = some true → r.name ≠ none) := by
  simp [complete_iff, misses_status, misses_busy, misses_name, Mode.isRecognized, Mode.Wants]

/-- Between them, the modes that ask for the busy flag read the name of every runner that is online. -/
theorem complete_idle_busy_iff :
    Complete .onlineNotBusy table r ∧ Complete .onlineBusy table r ↔
      Complete .online table r ∧ (r.status = some .online → r.busy ≠ none) := by
  rw [complete_onlineNotBusy_iff, complete_onlineBusy_iff, complete_online_iff]
  refine ⟨?_, ?_⟩
  · rintro ⟨⟨hs, hb, hidle⟩, -, -, hbusy⟩
    refine ⟨⟨hs, fun ht ho => ?_⟩, hb⟩
    -- the flag tells which of the two modes reads the name
    cases hflag : r.busy with
    | none => exact absurd hflag (hb ho)
    | some flag =>
      cases flag with
      | false => exact hidle ht ho hflag
      | true => exact hbusy ht ho hflag
  · rintro ⟨⟨hs, hn⟩, hb⟩
    exact ⟨⟨hs, hb, fun ht ho _ => hn ht ho⟩, hs, hb, fun ht ho _ => hn ht ho⟩

theorem wants_onlineBusy_iff :
    Mode.onlineBusy.Wants r ↔ r.busy = some true ∧ Mode.online.Wants r :=
  and_comm

/-- A runner that says whether it is busy is idle if it is not. -/
theorem wants_onlineNotBusy_iff (hflag : r.status = some .online → r.busy ≠ none) :
    Mode.onlineNotBusy.Wants r ↔ ¬ r.busy = some true ∧ Mode.online.Wants r := by
  simp only [Mode.Wants]
  refine ⟨?_, ?_⟩
  · rintro ⟨ho, hb⟩
    exact ⟨by simp [hb], ho⟩
  · rintro ⟨hb, ho⟩
    refine ⟨ho, ?_⟩
    cases h : r.busy with
    | none => exact absurd h (hflag ho)
    | some flag =>
      cases flag with
      | false => rfl
      | true => exact absurd h hb

/-! ### Whose ids they are -/

/-- The ids of the runners in turn, each with the position of its runner. -/
def contributions (mode : Mode) (runners : List Runner) (table : Table) : List (Nat × String) :=
  runners.zipIdx.flatMap fun p => (idsOf mode table p.1).map fun id => (p.2, id)

/-- The runner at this position says that it is busy. -/
def busyAt (runners : List Runner) (i : Nat) : Bool :=
  runners[i]?.any (·.busy == some true)

theorem busyAt_eq_true_iff {i : Nat} (h : runners[i]? = some r) :
    busyAt runners i = true ↔ r.busy = some true := by
  simp [busyAt, h]

theorem mem_contributions {i : Nat} {id : String} :
    (i, id) ∈ contributions mode runners table ↔
      ∃ r, runners[i]? = some r ∧ id ∈ idsOf mode table r := by
  simp only [contributions, List.mem_flatMap, List.mem_map, Prod.mk.injEq]
  refine ⟨?_, ?_⟩
  · rintro ⟨⟨r, j⟩, hr, id, hid, rfl, rfl⟩
    exact ⟨r, List.mk_mem_zipIdx_iff_getElem?.mp hr, hid⟩
  · rintro ⟨r, hr, hid⟩
    exact ⟨(r, i), List.mk_mem_zipIdx_iff_getElem?.mpr hr, id, hid, rfl, rfl⟩

/-- A runner contributes only if the mode wants it. -/
theorem wants_of_mem_idsOf {id : String} (h : id ∈ idsOf mode table r) : mode.Wants r := by
  by_contra hw
  simp [idsOf, hw] at h

/-- The contributions of the runners at some positions are contributions as a whole. -/
theorem map_filter_contributions (mode : Mode) (runners : List Runner) (table : Table)
    (side : Nat → Bool) :
    ((contributions mode runners table).filter fun c => side c.1).map Prod.snd =
      runners.zipIdx.flatMap fun p => if side p.2 then idsOf mode table p.1 else [] := by
  simp only [contributions, List.filter_flatMap, List.map_flatMap]
  refine List.flatMap_congr fun p _ => ?_
  by_cases hp : side p.2 <;> simp [hp, List.filter_map, Function.comp_def]

theorem map_contributions (mode : Mode) (runners : List Runner) (table : Table) :
    (contributions mode runners table).map Prod.snd = runners.flatMap (idsOf mode table) := by
  simp only [contributions, List.map_flatMap, List.map_map, Function.comp_def, List.map_id']
  conv_rhs => rw [← List.zipIdx_map_fst 0 runners]
  rw [List.flatMap_map]

/-- A mode that goes along with another on one side of the runners, and wants no others, selects what
the other one does on that side. -/
theorem flatMap_idsOf_eq {mode mode' : Mode} (side : Nat → Bool)
    (h : ∀ r i, (r, i) ∈ runners.zipIdx → (mode'.Wants r ↔ side i ∧ mode.Wants r)) :
    runners.flatMap (idsOf mode' table) =
      ((contributions mode runners table).filter fun c => side c.1).map Prod.snd := by
  rw [map_filter_contributions, ← map_contributions]
  simp only [contributions, List.map_flatMap, List.map_map, Function.comp_def, List.map_id']
  refine List.flatMap_congr fun p hp => ?_
  simp only [idsOf, h p.1 p.2 hp]
  by_cases hs : side p.2 <;> simp [hs]

/-- An id that is selected is owed to a runner that the mode wants. -/
theorem exists_contribution {ids : List String} {id : String}
    (h : selection mode runners table = .ok ids) (hid : id ∈ ids) :
    ∃ i, (i, id) ∈ contributions mode runners table := by
  obtain ⟨-, rfl⟩ := ofRunners_eq_ok_iff.mp h
  rw [← map_contributions] at hid
  obtain ⟨⟨i, id⟩, hi, rfl⟩ := List.mem_map.mp hid
  exact ⟨i, hi⟩

theorem wants_of_mem_contributions {i : Nat} {id : String}
    (h : (i, id) ∈ contributions mode runners table) :
    ∃ r, runners[i]? = some r ∧ mode.Wants r := by
  obtain ⟨r, hr, hid⟩ := mem_contributions.mp h
  exact ⟨r, hr, wants_of_mem_idsOf hid⟩

/-! ### The modes compared -/

/-- The ids of the runners that are online, divided between those of the idle and of the busy ones:
each position of the whole list belongs to one of the two parts, and it is the runner that tells to
which. -/
structure Divided (runners : List Runner) (table : Table) (online idle busy : List String) :
    Prop where
  whole : online = (contributions .online runners table).map Prod.snd
  idle : idle =
    ((contributions .online runners table).filter fun c => !busyAt runners c.1).map Prod.snd
  busy : busy =
    ((contributions .online runners table).filter fun c => busyAt runners c.1).map Prod.snd

theorem divided_of_selection {idle busy : List String}
    (hidle : selection .onlineNotBusy runners table = .ok idle)
    (hbusy : selection .onlineBusy runners table = .ok busy) :
    Divided runners table (runners.flatMap (idsOf .online table)) idle busy := by
  obtain ⟨hc, rfl⟩ := ofRunners_eq_ok_iff.mp hidle
  obtain ⟨-, rfl⟩ := ofRunners_eq_ok_iff.mp hbusy
  refine ⟨(map_contributions ..).symm, flatMap_idsOf_eq (fun i => !busyAt runners i) fun r i hr => ?_,
    flatMap_idsOf_eq (busyAt runners) fun r i hr => ?_⟩
  · have hat : runners[i]? = some r := List.mk_mem_zipIdx_iff_getElem?.mp hr
    have hflag := (complete_onlineNotBusy_iff.mp (hc r (List.mem_of_getElem? hat))).2.1
    rw [Bool.not_eq_true', ← Bool.not_eq_true, busyAt_eq_true_iff hat, wants_onlineNotBusy_iff hflag]
  · have hat : runners[i]? = some r := List.mk_mem_zipIdx_iff_getElem?.mp hr
    rw [busyAt_eq_true_iff hat, wants_onlineBusy_iff]

/-- **Idle and busy runners divide those that are online.**  There are selections of the idle and of the
busy ones exactly if there is one of those that are online and each of them has its flag; then the
first two are parts of the third.  An id that is selected online and offline alike is owed to different
runners. -/
theorem online_divides (runners : List Runner) (table : Table) :
    ((∃ idle, selection .onlineNotBusy runners table = .ok idle) ∧
        (∃ busy, selection .onlineBusy runners table = .ok busy) ↔
      (∃ online, selection .online runners table = .ok online) ∧
        ∀ r ∈ runners, r.status = some .online → r.busy ≠ none) ∧
    (∀ idle busy, selection .onlineNotBusy runners table = .ok idle →
      selection .onlineBusy runners table = .ok busy →
      ∃ online, selection .online runners table = .ok online ∧
        Divided runners table online idle busy) ∧
    ∀ online offline id, selection .online runners table = .ok online →
      selection .offline runners table = .ok offline → id ∈ online → id ∈ offline →
      (∃ i, (i, id) ∈ contributions .online runners table) ∧
      (∃ j, (j, id) ∈ contributions .offline runners table) ∧
      ∀ i j, (i, id) ∈ contributions .online runners table →
        (j, id) ∈ contributions .offline runners table →
        i ≠ j ∧ (∃ r, runners[i]? = some r ∧ r.status = some .online) ∧
          ∃ r, runners[j]? = some r ∧ r.status = some .offline := by
  have hexists : (∃ idle, selection .onlineNotBusy runners table = .ok idle) ∧
      (∃ busy, selection .onlineBusy runners table = .ok busy) ↔
      (∃ online, selection .online runners table = .ok online) ∧
        ∀ r ∈ runners, r.status = some .online → r.busy ≠ none := by
    simp only [exists_selection_iff, ← forall₂_and, complete_idle_busy_iff]
  refine ⟨hexists, fun idle busy hidle hbusy => ?_,
    fun online offline id honline hoffline hid hid' => ?_⟩
  · obtain ⟨⟨online, honline⟩, -⟩ := hexists.mp ⟨⟨idle, hidle⟩, busy, hbusy⟩
    obtain ⟨-, rfl⟩ := ofRunners_eq_ok_iff.mp honline
    exact ⟨_, honline, divided_of_selection hidle hbusy⟩
  · refine ⟨exists_contribution honline hid, exists_contribution hoffline hid', fun i j hi hj => ?_⟩
    obtain ⟨r, hr, hon⟩ := wants_of_mem_contributions hi
    obtain ⟨r', hr', hoff⟩ := wants_of_mem_contributions hj
    refine ⟨?_, ⟨r, hr, hon⟩, r', hr', hoff⟩
    rintro rfl
    -- one runner would be online and offline
    obtain rfl := Option.some.inj (hr.symm.trans hr')
    cases hon.symm.trans hoff

/-- Two machines of one name, and four runners, one of which bears that name offline: both machines are
selected three times online, twice of these for an idle runner, and once offline. -/
theorem online_divides_twins :
    let runners : List Runner :=
      [⟨some "twin", some .online, some true⟩, ⟨some "twin", some .offline, none⟩,
        ⟨some "twin", some .online, some false⟩, ⟨some "twin", some .online, some false⟩]
    let table : Table := ⟨[⟨"twin", "a"⟩, ⟨"twin", "b"⟩]⟩
    (selection .onlineNotBusy runners table = .ok ["a", "b", "a", "b"] ∧
      selection .onlineBusy runners table = .ok ["a", "b"] ∧
      Divided runners table ["a", "b", "a", "b", "a", "b"] ["a", "b", "a", "b"] ["a", "b"]) ∧
    selection .offline runners table = .ok ["a", "b"] ∧
      ∃ i j, i ≠ j ∧ (i, "b") ∈ contributions .online runners table ∧
        (j, "b") ∈ contributions .offline runners table := by
  intro runners table
  have honline : selection .online runners table = .ok ["a", "b", "a", "b", "a", "b"] := rfl
  have hidle : selection .onlineNotBusy runners table = .ok ["a", "b", "a", "b"] := rfl
  have hbusy : selection .onlineBusy runners table = .ok ["a", "b"] := rfl
  have hoffline : selection .offline runners table = .ok ["a", "b"] := rfl
  obtain ⟨-, hdivides, hboth⟩ := online_divides runners table
  obtain ⟨online, honline', hdivided⟩ := hdivides _ _ hidle hbusy
  cases honline.symm.trans honline'
  obtain ⟨⟨i, hi⟩, ⟨j, hj⟩, hapart⟩ := hboth _ _ "b" honline hoffline (by simp) (by simp)
  exact ⟨⟨hidle, hbusy, hdivided⟩, hoffline, i, j, (hapart i j hi hj).1, hi, hj⟩

end BuildFleet.Selection
