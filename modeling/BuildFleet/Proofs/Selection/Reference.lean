import Mathlib.Data.List.Count
import Mathlib.Data.List.Sort
import Mathlib.Data.Set.Card
import BuildFleet.Proofs.Selection.Required

/-!
# Selection — the selection as a join

A selection is a join of runners and machines over their names.  The runner at `i` and the machine at
`j` are *joined* when the mode wants the runner and both bear one name (`Joined`); a list of ids is
the *join* when it lists the ids of the joined machines by the pairs `(i, j)` in lexicographic order,
every pair once (`IsJoin`).

* `isJoin_flatMap`: what the runners contribute one after the other is the join.
* `IsJoin.count_eq`: an id occurs in the join once for each pair that it stands for.
* `selection_spec`: a selection fails exactly for the first field that is missed, of the first runner
  that misses one, and otherwise is the join.
-/

namespace BuildFleet.Selection

/-- The mode wants the runner at `i`, and the machine at `j` bears its name. -/
def Joined (mode : Mode) (runners : List Runner) (table : Table) (i j : Nat) : Prop :=
  ∃ r m, runners[i]? = some r ∧ table.machines[j]? = some m ∧ mode.Wants r ∧ r.name = some m.name

/-- The lexicographic order of pairs of positions. -/
def Before (p q : Nat × Nat) : Prop :=
  p.1 < q.1 ∨ p.1 = q.1 ∧ p.2 < q.2

/-- These are the ids of the joined machines, in the order of the pairs and each pair once. -/
def IsJoin (mode : Mode) (runners : List Runner) (table : Table) (ids : List String) : Prop :=
  ∃ pairs : List (Nat × Nat), pairs.Pairwise Before ∧
    (∀ i j, (i, j) ∈ pairs ↔ Joined mode runners table i j) ∧
    ids.map some = pairs.map fun p => table.machines[p.2]?.map (·.id)

variable {mode : Mode} {runners : List Runner} {table : Table} {ids : List String}

/-! ### The join is one list -/

instance : Std.Irrefl Before where
  irrefl _ h := h.elim (Nat.lt_irrefl _) fun h => Nat.lt_irrefl _ h.2

instance : Std.Asymm Before where
  asymm p q h h' := by
    unfold Before at h h'
    omega

theorem IsJoin.unique {ids' : List String} (h : IsJoin mode runners table ids)
    (h' : IsJoin mode runners table ids') : ids = ids' := by
  obtain ⟨pairs, hs, hm, he⟩ := h
  obtain ⟨pairs', hs', hm', he'⟩ := h'
  obtain rfl : pairs = pairs' :=
    hs.eq_of_mem_iff hs' fun p => (hm p.1 p.2).trans (hm' p.1 p.2).symm
  exact List.map_injective_iff.mpr (Option.some_injective _) (he.trans he'.symm)

/-- An id occurs as often as there are joined pairs whose machine has it. -/
theorem IsJoin.count_eq (h : IsJoin mode runners table ids) (id : String) :
    ids.count id = {p : Nat × Nat | Joined mode runners table p.1 p.2 ∧
      table.machines[p.2]?.map (·.id) = some id}.ncard := by
  obtain ⟨pairs, hs, hm, he⟩ := h
  have hset : {p : Nat × Nat | Joined mode runners table p.1 p.2 ∧
      table.machines[p.2]?.map (·.id) = some id} =
      ((pairs.filter fun p => table.machines[p.2]?.map (·.id) == some id).toFinset :
        Set (Nat × Nat)) := by
    ext p
    simp [← hm]
  rw [hset, Set.ncard_coe_finset, List.toFinset_card_of_nodup ((hs.imp _).filter _),
    ← List.countP_eq_length_filter, ← List.count_map_of_injective ids some (Option.some_injective _),
    he, List.count_eq_countP, List.countP_map]
  · rfl
  · rintro p q h rfl
    exact irrefl p h

/-- There are as many ids as joined pairs. -/
theorem IsJoin.length_eq (h : IsJoin mode runners table ids) :
    ids.length = {p : Nat × Nat | Joined mode runners table p.1 p.2}.ncard := by
  obtain ⟨pairs, hs, hm, he⟩ := h
  have hset : {p : Nat × Nat | Joined mode runners table p.1 p.2} = (pairs.toFinset : Set (Nat × Nat)) := by
    ext p
    simp [← hm]
  have hlength : ids.length = pairs.length := by
    simpa only [List.length_map] using congrArg List.length he
  rw [hset, Set.ncard_coe_finset, List.toFinset_card_of_nodup (hs.imp _), hlength]
  rintro p q h rfl
  exact irrefl p h

/-! ### The contributions are the join -/

/-- The positions of the machines that a runner at `i` is joined with. -/
def pairsOf (mode : Mode) (table : Table) (i : Nat) (r : Runner) : List (Nat × Nat) :=
  if mode.Wants r then
    (table.machines.zipIdx.filter fun m => r.name = some m.1.name).map fun m => (i, m.2)
  else []

theorem mem_pairsOf {i : Nat} {r : Runner} {p : Nat × Nat} :
    p ∈ pairsOf mode table i r ↔
      p.1 = i ∧ ∃ m, table.machines[p.2]? = some m ∧ mode.Wants r ∧ r.name = some m.name := by
  obtain ⟨i', j⟩ := p
  by_cases hw : mode.Wants r
  · simp only [pairsOf, hw, if_true, List.mem_map, List.mem_filter, decide_eq_true_eq, true_and]
    refine ⟨?_, ?_⟩
    · rintro ⟨⟨m, j'⟩, ⟨hm, hn⟩, he⟩
      cases he
      exact ⟨rfl, m, List.mk_mem_zipIdx_iff_getElem?.mp hm, hn⟩
    · rintro ⟨rfl, m, hm, hn⟩
      exact ⟨(m, j), ⟨List.mk_mem_zipIdx_iff_getElem?.mpr hm, hn⟩, rfl⟩
  · simp [pairsOf, hw]

theorem pairwise_pairsOf (i : Nat) (r : Runner) :
    (pairsOf mode table i r).Pairwise Before := by
  unfold pairsOf
  split
  · refine List.pairwise_map.mpr (List.Pairwise.filter _ ?_)
    have h : (table.machines.zipIdx.map Prod.snd).Pairwise (· < ·) := by
      rw [List.zipIdx_map_snd]
      exact List.pairwise_lt_range'
    exact (List.pairwise_map.mp h).imp fun h => .inr ⟨rfl, h⟩
  · exact .nil

theorem map_pairsOf (i : Nat) (r : Runner) :
    (pairsOf mode table i r).map (fun p => table.machines[p.2]?.map (·.id)) =
      (idsOf mode table r).map some := by
  unfold pairsOf idsOf
  split
  · conv_rhs => rw [← List.zipIdx_map_fst 0 table.machines]
    rw [List.filter_map, List.map_map, List.map_map, List.map_map]
    refine List.map_congr_left fun m hm => ?_
    have hm := List.mk_mem_zipIdx_iff_getElem?.mp (List.mem_of_mem_filter hm)
    simp [hm]
  · rfl

/-- What the runners contribute one after the other is the join. -/
theorem isJoin_flatMap (mode : Mode) (runners : List Runner) (table : Table) :
    IsJoin mode runners table (runners.flatMap (idsOf mode table)) := by
  refine ⟨runners.zipIdx.flatMap fun r => pairsOf mode table r.2 r.1, ?_, fun i j => ?_, ?_⟩
  · refine List.pairwise_flatMap.mpr ⟨fun r _ => pairwise_pairsOf r.2 r.1, ?_⟩
    have h : (runners.zipIdx.map Prod.snd).Pairwise (· < ·) := by
      rw [List.zipIdx_map_snd]
      exact List.pairwise_lt_range'
    refine (List.pairwise_map.mp h).imp fun h p hp q hq => .inl ?_
    rw [(mem_pairsOf.mp hp).1, (mem_pairsOf.mp hq).1]
    exact h
  · rw [List.mem_flatMap]
    refine ⟨?_, ?_⟩
    · rintro ⟨⟨r, i'⟩, hr, hp⟩
      obtain ⟨rfl, m, hm, hw, hn⟩ := mem_pairsOf.mp hp
      exact ⟨r, m, List.mk_mem_zipIdx_iff_getElem?.mp hr, hm, hw, hn⟩
    · rintro ⟨r, m, hr, hm, hw, hn⟩
      exact ⟨(r, i), List.mk_mem_zipIdx_iff_getElem?.mpr hr, mem_pairsOf.mpr ⟨rfl, m, hm, hw, hn⟩⟩
  · simp only [List.map_flatMap, map_pairsOf]
    conv_lhs => rw [← List.zipIdx_map_fst 0 runners]
    rw [List.flatMap_map]

/-! ### The selection -/

/-- **The selection.**  It fails exactly if some runner misses a field, and reports the first such
runner with the first field that it misses; otherwise it is the join, in which an id occurs once for
each pair that it stands for. -/
theorem selection_spec (mode : Mode) (runners : List Runner) (table : Table) :
    (∀ failure, selection mode runners table = .error failure ↔
      ∃ index field, FirstIncomplete mode table runners index field ∧
        failure = .missingRunnerField index field) ∧
    (∀ ids, selection mode runners table = .ok ids ↔
      (∀ r ∈ runners, Complete mode table r) ∧ IsJoin mode runners table ids ∧
        ∀ id, ids.count id = {p : Nat × Nat | Joined mode runners table p.1 p.2 ∧
          table.machines[p.2]?.map (·.id) = some id}.ncard) := by
  refine ⟨fun failure => ?_, fun ids => ?_⟩
  · rw [selection, ofRunners_eq_error_iff]
    simp only [Nat.zero_add]
  · have hjoin := isJoin_flatMap mode runners table
    rw [selection, ofRunners_eq_ok_iff]
    refine ⟨?_, ?_⟩
    · rintro ⟨hc, rfl⟩
      exact ⟨hc, hjoin, hjoin.count_eq⟩
    · rintro ⟨hc, h, -⟩
      exact ⟨hc, h.unique hjoin⟩

end BuildFleet.Selection
