import Mathlib.Data.List.Perm.Basic
import BuildFleet.Proofs.Selection.Required

/-!
# Selection — the order of runners and machines

The order of the runners and that of the machines tell in which order the ids come, and which failure
is reported of several.  They do not tell whether there is a selection, nor which ids are in it and how
often.

* `idsOf_perm`: machines in another order are as many ids of a runner, in another order.
* `flatMap_idsOf_perm`: so it is with runners.
* `selection_reordered`: a selection of runners and machines in another order.  A failure is not even
  another one if only the machines are.
-/

namespace BuildFleet.Selection

variable {mode : Mode} {runners runners' : List Runner} {t t' : Table}

theorem machines_eq_nil_iff_of_perm (h : t.machines.Perm t'.machines) :
    t.machines = [] ↔ t'.machines = [] := by
  refine ⟨fun ht => ?_, fun ht => ?_⟩
  · rw [ht] at h
    exact h.nil_eq.symm
  · rw [ht] at h
    exact h.eq_nil

/-- A runner contributes the same ids from machines in another order. -/
theorem idsOf_perm (h : t.machines.Perm t'.machines) (r : Runner) :
    (idsOf mode t r).Perm (idsOf mode t' r) := by
  unfold idsOf
  split
  · exact (h.filter _).map _
  · exact .refl _

/-- Runners in another order contribute the same ids. -/
theorem flatMap_idsOf_perm (hr : runners.Perm runners') (ht : t.machines.Perm t'.machines) :
    (runners.flatMap (idsOf mode t)).Perm (runners'.flatMap (idsOf mode t')) :=
  hr.flatMap fun r _ => idsOf_perm ht r

/-- As nothing is missed in one order, nothing is missed in another. -/
theorem complete_of_perm (hr : runners.Perm runners') (ht : t.machines.Perm t'.machines) :
    (∀ r ∈ runners, Complete mode t r) ↔ ∀ r ∈ runners', Complete mode t' r := by
  simp only [Complete.of_table (machines_eq_nil_iff_of_perm ht), hr.mem_iff]

/-- **The order does not matter to what is selected.**  Of runners and machines in another order there is
a selection exactly if there was one, and it has the same ids, each as often.  Of machines in another
order and runners in the same one, the failure is the same, down to the runner and the field. -/
theorem selection_reordered (hr : runners.Perm runners') (ht : t.machines.Perm t'.machines) :
    ((∃ ids, selection mode runners' t' = .ok ids) ↔ ∃ ids, selection mode runners t = .ok ids) ∧
    (∀ ids ids', selection mode runners t = .ok ids → selection mode runners' t' = .ok ids' →
      ids.Perm ids') ∧
    ∀ failure, selection mode runners t' = .error failure ↔
      selection mode runners t = .error failure := by
  refine ⟨?_, fun ids ids' h h' => ?_, fun failure => ?_⟩
  · rw [exists_selection_iff, exists_selection_iff]
    exact (complete_of_perm hr ht).symm
  · obtain ⟨-, rfl⟩ := selection_eq_ok_iff.mp h
    obtain ⟨-, rfl⟩ := selection_eq_ok_iff.mp h'
    exact flatMap_idsOf_perm hr ht
  · exact (selection_eq_error_of_table (machines_eq_nil_iff_of_perm ht)).symm

/-- Two machines of one name with another between them, and two runners, all of them backwards; and of the
machines alone, with a runner that lacks its name. -/
theorem selection_reordered_twins :
    let runners : List Runner := [⟨some "twin", some .online, none⟩, ⟨some "single", some .online, none⟩]
    let lacking : List Runner := [⟨some "twin", some .online, none⟩, ⟨none, some .online, none⟩]
    let t : Table := ⟨[⟨"twin", "1"⟩, ⟨"single", "2"⟩, ⟨"twin", "3"⟩]⟩
    let t' : Table := ⟨[⟨"twin", "3"⟩, ⟨"single", "2"⟩, ⟨"twin", "1"⟩]⟩
    runners.Perm runners.reverse ∧ t.machines.Perm t'.machines ∧
      selection .online runners t = .ok ["1", "3", "2"] ∧
      selection .online runners.reverse t' = .ok ["2", "3", "1"] ∧
      ["1", "3", "2"].Perm ["2", "3", "1"] ∧
      selection .online lacking t' = .error (.missingRunnerField 1 .name) := by
  intro runners lacking t t'
  have hr : runners.Perm runners.reverse := (List.reverse_perm runners).symm
  have ht : t.machines.Perm t'.machines := (List.reverse_perm t.machines).symm
  have hids : selection .online runners t = .ok ["1", "3", "2"] := rfl
  have hids' : selection .online runners.reverse t' = .ok ["2", "3", "1"] := rfl
  have hlacking : selection .online lacking t = .error (.missingRunnerField 1 .name) := rfl
  exact ⟨hr, ht, hids, hids', (selection_reordered hr ht).2.1 _ _ hids hids',
    ((selection_reordered (List.Perm.refl lacking) ht).2.2 _).mpr hlacking⟩

end BuildFleet.Selection
