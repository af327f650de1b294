import Mathlib.Data.List.FinRange
import Mathlib.Data.List.Sort
import Mathlib.Logic.Equiv.Basic
import BuildFleet.Selection

/-!
# Selection — tables that cannot be told apart

A selection asks a table for the ids of one name at a time, and whether it is empty.  The latter it could
find out from the former, so two tables give the same selections if they have the same ids for every
name (`ofRunners_of_sameIds`); and they do not if some ids differ, for a runner of that name tells
(`selection_of_bearer`).

* `Table.Reordered.idsNamed_eq`: machines of different names may change places.
* `told_apart_iff`: the tables that give the same selections.
-/

namespace BuildFleet

namespace Table

/-- The second table has the machines of the first at other places, but those of one name follow each
other as before. -/
def Reordered (t t' : Table) : Prop :=
  ∃ place : Fin t.machines.length ≃ Fin t'.machines.length,
    (∀ i, t'.machines.get (place i) = t.machines.get i) ∧
    ∀ i j, i < j → (t.machines.get i).name = (t.machines.get j).name → place i < place j

variable {t t' : Table}

/-- A table that has no ids for any name has no machines. -/
theorem machines_eq_nil_iff : t.machines = [] ↔ ∀ name, t.idsNamed name = [] := by
  refine ⟨fun h name => by simp [idsNamed, h], fun h => ?_⟩
  cases hm : t.machines with
  | nil => rfl
  | cons m rest =>
    have hids := h m.name
    simp [idsNamed, hm] at hids

theorem isEmpty_of_sameIds (h : ∀ name, t.idsNamed name = t'.idsNamed name) :
    t.isEmpty = t'.isEmpty := by
  have hnil : t.machines = [] ↔ t'.machines = [] := by
    simp only [machines_eq_nil_iff, h]
  rw [Bool.eq_iff_iff, isEmpty, isEmpty, List.isEmpty_iff, List.isEmpty_iff, hnil]

/-! ### Reordering -/

/-- The places of the machines of one name, in order. -/
def placesOf (t : Table) (name : String) : List (Fin t.machines.length) :=
  (List.finRange t.machines.length).filter fun i => (t.machines.get i).name == name

theorem mem_placesOf {name : String} {i : Fin t.machines.length} :
    i ∈ t.placesOf name ↔ (t.machines.get i).name = name := by
  simp [placesOf]

theorem pairwise_placesOf (t : Table) (name : String) : (t.placesOf name).Pairwise (· < ·) :=
  (List.pairwise_lt_finRange _).filter _

theorem idsNamed_eq_map (t : Table) (name : String) :
    t.idsNamed name = (t.placesOf name).map fun i => (t.machines.get i).id := by
  conv_lhs => rw [idsNamed, ← List.map_get_finRange t.machines]
  rw [List.filter_map, List.map_map]
  rfl

/-- The places of one name are moved in their order. -/
theorem map_placesOf {place : Fin t.machines.length ≃ Fin t'.machines.length}
    (hsame : ∀ i, t'.machines.get (place i) = t.machines.get i)
    (horder : ∀ i j, i < j → (t.machines.get i).name = (t.machines.get j).name → place i < place j)
    (name : String) : (t.placesOf name).map place = t'.placesOf name := by
  refine List.Pairwise.eq_of_mem_iff ?_ (pairwise_placesOf t' name) fun j => ?_
  · rw [List.pairwise_map]
    refine (pairwise_placesOf t name).imp_of_mem fun hi hj hlt => ?_
    exact horder _ _ hlt ((mem_placesOf.mp hi).trans (mem_placesOf.mp hj).symm)
  · rw [List.mem_map, mem_placesOf]
    refine ⟨?_, fun hj => ?_⟩
    · rintro ⟨i, hi, rfl⟩
      rw [hsame]
      exact mem_placesOf.mp hi
    · refine ⟨place.symm j, mem_placesOf.mpr ?_, place.apply_symm_apply j⟩
      rw [← hsame, place.apply_symm_apply]
      exact hj

/-- Machines of different names may change places. -/
theorem Reordered.idsNamed_eq (h : Reordered t t') (name : String) :
    t.idsNamed name = t'.idsNamed name := by
  obtain ⟨place, hsame, horder⟩ := h
  rw [idsNamed_eq_map, idsNamed_eq_map, ← map_placesOf hsame horder, List.map_map]
  exact List.map_congr_left fun i _ => congrArg Machine.id (hsame i).symm

end Table

namespace Selection

variable {mode : Mode} {t t' : Table}

/-! ### Tables with the same ids -/

theorem ofRunner_of_sameIds (h : ∀ name, t.idsNamed name = t'.idsNamed name) (r : Runner) :
    ofRunner mode t r = ofRunner mode t' r := by
  simp only [ofRunner, Table.isEmpty_of_sameIds h, h]

theorem ofRunners_of_sameIds (h : ∀ name, t.idsNamed name = t'.idsNamed name) (start : Nat)
    (runners : List Runner) : ofRunners mode t start runners = ofRunners mode t' start runners := by
  induction runners generalizing start with
  | nil => rfl
  | cons r rest ih => rw [ofRunners, ofRunners, ofRunner_of_sameIds h, ih]

/-! ### Tables with different ids -/

/-- A runner that is online, of which no more is known than its name. -/
def bearer (name : String) : Runner :=
  { name := some name, status := some .online }

/-- The selection of one such runner is the ids of its name. -/
theorem selection_of_bearer (t : Table) (name : String) :
    selection .online [bearer name] t = .ok (t.idsNamed name) := by
  by_cases ht : t.machines = []
  · have hids : t.idsNamed name = [] := Table.machines_eq_nil_iff.mp ht name
    simp [selection, ofRunners, ofRunner, Mode.selects, Runner.requireStatus, bearer, bind,
      Except.bind, Except.mapError, Table.isEmpty, ht, hids]
  · simp [selection, ofRunners, ofRunner, Mode.selects, Runner.requireStatus, Runner.requireName,
      bearer, bind, Except.bind, Except.mapError, Status.isOnline, Table.isEmpty, ht]

/-- **Tables are told apart by the ids of some name, and by nothing else.**  So they cannot be told apart
if one is the other reordered; and where the ids of a name differ, a runner of that name tells. -/
theorem told_apart_iff (t t' : Table) :
    ((∀ mode runners, selection mode runners t = selection mode runners t') ↔
      ∀ name, t.idsNamed name = t'.idsNamed name) ∧
    (Table.Reordered t t' → ∀ mode runners, selection mode runners t = selection mode runners t') ∧
    ∀ name, t.idsNamed name ≠ t'.idsNamed name →
      selection .online [bearer name] t ≠ selection .online [bearer name] t' := by
  have hsame : (∀ name, t.idsNamed name = t'.idsNamed name) →
      ∀ mode runners, selection mode runners t = selection mode runners t' :=
    fun h mode runners => ofRunners_of_sameIds h 0 runners
  have htells : ∀ name, selection .online [bearer name] t = selection .online [bearer name] t' →
      t.idsNamed name = t'.idsNamed name := by
    intro name h
    rw [selection_of_bearer, selection_of_bearer] at h
    exact Except.ok.inj h
  exact ⟨⟨fun h name => htells name (h _ _), hsame⟩, fun h => hsame h.idsNamed_eq,
    fun name => mt (htells name)⟩

/-- Two machines of one name, and one of another in front of them, between them or behind them: that makes
no difference, but it does which of the two comes first. -/
theorem told_apart_twins :
    let t : Table := ⟨[⟨"twin", "1"⟩, ⟨"single", "2"⟩, ⟨"twin", "3"⟩]⟩
    let moved : Table := ⟨[⟨"single", "2"⟩, ⟨"twin", "1"⟩, ⟨"twin", "3"⟩]⟩
    let swapped : Table := ⟨[⟨"twin", "3"⟩, ⟨"single", "2"⟩, ⟨"twin", "1"⟩]⟩
    (Table.Reordered t moved ∧
      ∀ mode runners, selection mode runners t = selection mode runners moved) ∧
    t.idsNamed "twin" ≠ swapped.idsNamed "twin" ∧
      selection .online [bearer "twin"] t ≠ selection .online [bearer "twin"] swapped := by
  intro t moved swapped
  have hmoved : Table.Reordered t moved := ⟨Equiv.swap (0 : Fin 3) 1, by decide, by decide⟩
  have hswapped : t.idsNamed "twin" ≠ swapped.idsNamed "twin" := by decide
  exact ⟨⟨hmoved, (told_apart_iff t moved).2.1 hmoved⟩, hswapped,
    (told_apart_iff t swapped).2.2 "twin" hswapped⟩

end Selection

end BuildFleet
