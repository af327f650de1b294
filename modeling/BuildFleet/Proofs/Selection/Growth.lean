import Mathlib.Algebra.GroupWithZero.Nat
import Mathlib.Data.List.Flatten
import BuildFleet.Proofs.Selection.Required

/-!
# Selection — tables that grow

A table grows when machines are put in between those that it has (`PutIn`), be it under new names or
under names that it has already.  As long as it was not empty before, this takes no id away from a
selection, and it makes no field be read that was not read before.

It is otherwise with an empty table: as soon as there is a machine in it, the names of the runners are
read, and one may be missing.

* `PutIn.countP_eq`: what is in the table afterwards was in it before, or has been put in.
* `idsOf_sublist`, `length_flatMap_idsOf`: what the runners contribute afterwards, and how much of it.
* `selection_grown`: the selection from a table that has grown.
-/

namespace BuildFleet.Selection

variable {mode : Mode} {runners : List Runner} {t t' : Table}

/-- The machines of the third list are those of the first, with those of the second put in between. -/
inductive PutIn : (before added after : List Machine) → Prop where
  | none : PutIn [] [] []
  | kept {m : Machine} {before added after : List Machine} : PutIn before added after →
      PutIn (m :: before) added (m :: after)
  | added {m : Machine} {before added after : List Machine} : PutIn before added after →
      PutIn before (m :: added) (m :: after)

/-- Where machines have been left out, they can be put in again. -/
theorem exists_putIn {before after : List Machine} (h : before.Sublist after) :
    ∃ added, PutIn before added after := by
  induction h with
  | slnil => exact ⟨[], .none⟩
  | cons m _ ih =>
    obtain ⟨added, h⟩ := ih
    exact ⟨m :: added, .added h⟩
  | cons_cons m _ ih =>
    obtain ⟨added, h⟩ := ih
    exact ⟨added, .kept h⟩

theorem PutIn.countP_eq {before added after : List Machine} (h : PutIn before added after)
    (p : Machine → Bool) : after.countP p = before.countP p + added.countP p := by
  induction h with
  | none => rfl
  | kept _ ih | added _ ih =>
    simp only [List.countP_cons, ih]
    omega

/-! ### What the runners contribute -/

/-- No id of a runner is lost, nor do two change places. -/
theorem idsOf_sublist (h : t.machines.Sublist t'.machines) (r : Runner) :
    (idsOf mode t r).Sublist (idsOf mode t' r) := by
  unfold idsOf
  split
  · exact (h.filter _).map _
  · exact .slnil

/-- The ids that come in addition are those of the machines that have been put in. -/
theorem length_flatMap_idsOf {added : List Machine} (h : PutIn t.machines added t'.machines) :
    (runners.flatMap (idsOf mode t')).length = (runners.flatMap (idsOf mode t)).length +
      ((runners.filter (mode.Wants ·)).map fun r =>
        added.countP fun m => r.name = some m.name).sum := by
  induction runners with
  | nil => rfl
  | cons r rest ih =>
    simp only [List.flatMap_cons, List.length_append, ih, length_idsOf, h.countP_eq, List.filter_cons]
    by_cases hw : mode.Wants r
    · simp only [hw, if_true, decide_true, List.map_cons, List.sum_cons]
      omega
    · simp only [hw, if_false, decide_false, Bool.false_eq_true]
      omega

/-! ### The selection -/

/-- **A table that grows only adds ids.**  From a table that had machines and has got more, there is the
same failure, down to the runner and the field, if there was one.  If there was none, the ids are still
there, in their order, and in addition for each runner that the mode wants those of the machines put
in under its name. -/
theorem selection_grown (hne : t.machines ≠ []) (h : t.machines.Sublist t'.machines) :
    (∀ failure, selection mode runners t' = .error failure ↔
      selection mode runners t = .error failure) ∧
    (∃ added, PutIn t.machines added t'.machines) ∧
    ∀ ids', selection mode runners t' = .ok ids' →
      ∃ ids, selection mode runners t = .ok ids ∧ ids.Sublist ids' ∧
        ∀ added, PutIn t.machines added t'.machines →
          ids'.length = ids.length + ((runners.filter (mode.Wants ·)).map fun r =>
            added.countP fun m => r.name = some m.name).sum := by
  have hmachines : t.machines = [] ↔ t'.machines = [] := by
    refine iff_of_false hne fun ht' => hne ?_
    rw [ht'] at h
    exact List.sublist_nil.mp h
  refine ⟨fun failure => (selection_eq_error_of_table hmachines).symm, exists_putIn h, ?_⟩
  intro ids' hids'
  obtain ⟨hc, rfl⟩ := selection_eq_ok_iff.mp hids'
  have hc' : ∀ r ∈ runners, Complete mode t r := fun r hr =>
    (Complete.of_table hmachines).mpr (hc r hr)
  refine ⟨_, selection_eq_ok_iff.mpr ⟨hc', rfl⟩, ?_, fun added hadded => length_flatMap_idsOf hadded⟩
  exact List.Sublist.flatMap_right runners fun r _ => idsOf_sublist h r

/-- One machine is put in under a name that is there, and one under a new name: both runners of the first
name get an id more, and a runner that the mode does not want gets none. -/
theorem selection_grown_twin :
    let runners : List Runner := [⟨some "twin", some .online, none⟩, ⟨some "new", some .offline, none⟩,
      ⟨some "twin", some .online, none⟩]
    let t : Table := ⟨[⟨"twin", "1"⟩, ⟨"single", "2"⟩]⟩
    let t' : Table := ⟨[⟨"twin", "3"⟩, ⟨"twin", "1"⟩, ⟨"new", "4"⟩, ⟨"single", "2"⟩]⟩
    let added : List Machine := [⟨"twin", "3"⟩, ⟨"new", "4"⟩]
    t.machines ≠ [] ∧ t.machines.Sublist t'.machines ∧ PutIn t.machines added t'.machines ∧
      selection .online runners t' = .ok ["3", "1", "3", "1"] ∧
      ∃ ids : List String, selection .online runners t = .ok ids ∧
        ids.Sublist ["3", "1", "3", "1"] ∧ ids.length + 2 = 4 := by
  intro runners t t' added
  have hne : t.machines ≠ [] := List.cons_ne_nil _ _
  have h : t.machines.Sublist t'.machines := .cons _ (.cons_cons _ (.cons _ (.cons_cons _ .slnil)))
  have hadded : PutIn t.machines added t'.machines := .added (.kept (.added (.kept .none)))
  have hids' : selection .online runners t' = .ok ["3", "1", "3", "1"] := rfl
  obtain ⟨ids, hids, hsub, hlength⟩ := (selection_grown hne h).2.2 _ hids'
  exact ⟨hne, h, hadded, hids', ids, hids, hsub, (hlength added hadded).symm⟩

/-- An empty table that grows makes the names be read. -/
example : selection .online [{ status := some .online }] ⟨[]⟩ = .ok [] ∧
    selection .online [{ status := some .online }] ⟨[⟨"new", "1"⟩]⟩ =
      .error (.missingRunnerField 0 .name) :=
  ⟨rfl, rfl⟩

end BuildFleet.Selection
