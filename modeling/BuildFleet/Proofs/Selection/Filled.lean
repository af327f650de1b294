import Mathlib.Data.List.Forall2
import BuildFleet.Proofs.Selection.Required

/-!
# Selection — absent fields filled in

A runner is *filled in* by giving values to fields that were absent (`FilledIn`).  This may make
more be read of it: the busy flag of a runner that turns out to be online, the name of one that turns
out to be wanted.  But whether a field is read is decided by the fields that are read before it
(`FilledIn.requires_iff`), so filling in changes nothing in front of the first field that is missed.

* `FilledIn.complete`, `FilledIn.idsOf_eq`: a runner that misses nothing still misses nothing, and
  contributes what it did.
* `firstIncomplete_filled`, `not_before_filled`: of several runners, the first field that is missed stays
  the first for as long as it is absent, and no field in front of it comes to be missed.
* `filling_in`: a selection is kept, and a failure gives way to a selection or to a failure further on.
-/

namespace BuildFleet.Selection

/-- The second runner is the first, with values given to some fields that were absent. -/
structure FilledIn (r r' : Runner) : Prop where
  name : r.name ≠ none → r'.name = r.name
  status : r.status ≠ none → r'.status = r.status
  busy : r.busy ≠ none → r'.busy = r.busy

/-- The order in which fields are read: of one runner after the other the status, the busy flag and the
name. -/
def ReadBefore (p q : Nat × RunnerField) : Prop :=
  p.1 < q.1 ∨ p.1 = q.1 ∧ p.2.rank < q.2.rank

variable {mode : Mode} {table : Table} {r r' : Runner}

/-! ### One runner -/

namespace FilledIn

/-- A field that is absent after filling in was absent before. -/
theorem lacks (h : FilledIn r r') {field : RunnerField} (hl : r'.Lacks field) : r.Lacks field := by
  by_contra hn
  cases field with
  | name => exact hn ((h.name hn).symm.trans hl)
  | status => exact hn ((h.status hn).symm.trans hl)
  | busy => exact hn ((h.busy hn).symm.trans hl)

/-- A mode that can tell about a runner wants it as much after filling in. -/
theorem wants_iff (h : FilledIn r r') (hs : ¬ Misses mode table r .status)
    (hb : ¬ Misses mode table r .busy) : mode.Wants r' ↔ mode.Wants r := by
  rw [misses_status, not_and] at hs
  rw [misses_busy] at hb
  have hbusy : mode = .onlineNotBusy ∨ mode = .onlineBusy → r.status = some .online →
      r'.busy = r.busy := fun hm ho => h.busy fun hn => hb ⟨hm, ho, hn⟩
  cases mode with
  | unrecognized => exact Iff.rfl
  | online | offline => rw [Mode.Wants, Mode.Wants, h.status (hs rfl)]
  | onlineNotBusy | onlineBusy =>
    rw [Mode.Wants, Mode.Wants, h.status (hs rfl)]
    exact and_congr_right fun ho => by rw [hbusy (by simp) ho]

/-- **Whether a field is read is decided by the fields before it**: if none of these is missed, filling
in makes no difference to that. -/
theorem requires_iff (h : FilledIn r r') {field : RunnerField}
    (hbefore : ∀ other, other.rank < field.rank → ¬ Misses mode table r other) :
    Requires mode table r' field ↔ Requires mode table r field := by
  cases field with
  | status =>
    refine ⟨?_, ?_⟩
    · rintro ⟨hm⟩
      exact .status hm
    · rintro ⟨hm⟩
      exact .status hm
  | busy =>
    -- a mode that asks for the busy flag has read the status
    have hs : mode = .onlineNotBusy ∨ mode = .onlineBusy → r'.status = r.status := by
      intro hm
      have hr : mode.isRecognized := by rcases hm with rfl | rfl <;> rfl
      exact h.status fun hn => hbefore .status (by decide) (misses_status.mpr ⟨hr, hn⟩)
    refine ⟨?_, ?_⟩
    · rintro (_ | ⟨hm, ho⟩)
      exact .busy hm ((hs hm).symm.trans ho)
    · rintro (_ | ⟨hm, ho⟩)
      exact .busy hm ((hs hm).trans ho)
  | name =>
    have hw : mode.Wants r' ↔ mode.Wants r :=
      h.wants_iff (hbefore .status (by decide)) (hbefore .busy (by decide))
    refine ⟨?_, ?_⟩
    · rintro (_ | _ | ⟨hm, ht, hwants⟩)
      exact .name hm ht (hw.mp hwants)
    · rintro (_ | _ | ⟨hm, ht, hwants⟩)
      exact .name hm ht (hw.mpr hwants)

/-- A field is missed after filling in if it was missed and is still absent. -/
theorem misses_iff (h : FilledIn r r') {field : RunnerField}
    (hbefore : ∀ other, other.rank < field.rank → ¬ Misses mode table r other) :
    Misses mode table r' field ↔ Misses mode table r field ∧ r'.Lacks field := by
  rw [Misses, Misses, h.requires_iff hbefore]
  exact ⟨fun ⟨hr, hl⟩ => ⟨⟨hr, h.lacks hl⟩, hl⟩, fun ⟨⟨hr, _⟩, hl⟩ => ⟨hr, hl⟩⟩

theorem complete (h : FilledIn r r') (hc : Complete mode table r) : Complete mode table r' :=
  fun field hm => hc field ((h.misses_iff fun other _ => hc other).mp hm).1

/-- Nothing that is read before the first field that was missed is missed after filling in. -/
theorem not_misses_before (h : FilledIn r r') {field other : RunnerField}
    (hf : FirstMissed mode table r field) (ho : other.rank < field.rank) :
    ¬ Misses mode table r' other := by
  intro hm
  have hbefore : ∀ earlier : RunnerField, earlier.rank < other.rank →
      ¬ Misses mode table r earlier := fun earlier he => hf.2 earlier (Nat.lt_trans he ho)
  exact hf.2 other ho ((h.misses_iff hbefore).mp hm).1

/-- The first field that was missed stays the first if it is still absent. -/
theorem firstMissed (h : FilledIn r r') {field : RunnerField}
    (hf : FirstMissed mode table r field) (hl : r'.Lacks field) : FirstMissed mode table r' field :=
  ⟨(h.misses_iff hf.2).mpr ⟨hf.1, hl⟩, fun _ ho => h.not_misses_before hf ho⟩

/-- A runner that misses nothing contributes the same after filling in. -/
theorem idsOf_eq (h : FilledIn r r') (hc : Complete mode table r) :
    idsOf mode table r' = idsOf mode table r := by
  obtain ⟨hs, hb, hn⟩ := complete_iff.mp hc
  have hwants := h.wants_iff hs hb
  rw [idsOf, idsOf]
  by_cases hw : mode.Wants r
  · rw [if_pos hw, if_pos (hwants.mpr hw)]
    by_cases ht : table.machines = []
    · simp [ht]
    · rw [h.name fun hname => hn (misses_name.mpr ⟨ht, hw, hname⟩)]
  · rw [if_neg hw, if_neg (mt hwants.mp hw)]

end FilledIn

/-! ### Several runners -/

variable {xs ys : List Runner} {index : Nat} {field : RunnerField}

theorem complete_filled (h : List.Forall₂ FilledIn xs ys) (hc : ∀ r ∈ xs, Complete mode table r) :
    (∀ r ∈ ys, Complete mode table r) ∧
      ys.flatMap (idsOf mode table) = xs.flatMap (idsOf mode table) := by
  induction h with
  | nil => exact ⟨hc, rfl⟩
  | cons hr _ ih =>
    obtain ⟨hfirst, hrest⟩ := List.forall_mem_cons.mp hc
    obtain ⟨hcomplete, hids⟩ := ih hrest
    refine ⟨List.forall_mem_cons.mpr ⟨hr.complete hfirst, hcomplete⟩, ?_⟩
    rw [List.flatMap_cons, List.flatMap_cons, hids, hr.idsOf_eq hfirst]

theorem not_firstIncomplete_nil : ¬ FirstIncomplete mode table [] index field := by
  rintro ⟨⟨r, hr, -⟩, -⟩
  cases hr

theorem readBefore_succ_iff {i j : Nat} {f g : RunnerField} :
    ReadBefore (i + 1, f) (j + 1, g) ↔ ReadBefore (i, f) (j, g) := by
  simp [ReadBefore]

/-- No field comes to be missed that is read before the first one that was. -/
theorem not_before_filled (h : List.Forall₂ FilledIn xs ys) {index' : Nat} {field' : RunnerField}
    (hx : FirstIncomplete mode table xs index field)
    (hy : FirstIncomplete mode table ys index' field') :
    ¬ ReadBefore (index', field') (index, field) := by
  induction h generalizing index index' with
  | nil => exact absurd hx not_firstIncomplete_nil
  | cons hr _ ih =>
    cases index with
    | zero =>
      cases index' with
      | zero =>
        rintro (hlt | ⟨-, hlt⟩)
        · exact Nat.lt_irrefl _ hlt
        · exact hr.not_misses_before (firstIncomplete_cons_zero.mp hx) hlt
            (firstIncomplete_cons_zero.mp hy).1
      | succ index' => simp [ReadBefore]
    | succ index =>
      obtain ⟨hc, hx⟩ := firstIncomplete_cons_succ.mp hx
      cases index' with
      | zero => exact absurd (firstIncomplete_cons_zero.mp hy).1 (hr.complete hc field')
      | succ index' =>
        rw [readBefore_succ_iff]
        exact ih hx (firstIncomplete_cons_succ.mp hy).2

/-- The first field that was missed stays the first if it is still absent. -/
theorem firstIncomplete_filled (h : List.Forall₂ FilledIn xs ys)
    (hx : FirstIncomplete mode table xs index field) {r : Runner} (hr : ys[index]? = some r)
    (hl : r.Lacks field) : FirstIncomplete mode table ys index field := by
  induction h generalizing index with
  | nil => exact absurd hx not_firstIncomplete_nil
  | cons hfirst _ ih =>
    cases index with
    | zero =>
      cases hr
      exact firstIncomplete_cons_zero.mpr
        (hfirst.firstMissed (firstIncomplete_cons_zero.mp hx) hl)
    | succ index =>
      obtain ⟨hc, hx⟩ := firstIncomplete_cons_succ.mp hx
      exact firstIncomplete_cons_succ.mpr ⟨hfirst.complete hc, ih hx hr⟩

/-! ### Selections -/

/-- **Filling in absent fields never undoes progress.**  A selection stays as it is.  A failure gives way
to a selection, or to a failure for a field that is read no earlier; and it stays as it is for as long
as its field is absent. -/
theorem filling_in (mode : Mode) (table : Table) {xs ys : List Runner}
    (h : List.Forall₂ FilledIn xs ys) :
    (∀ ids, selection mode xs table = .ok ids → selection mode ys table = .ok ids) ∧
    ∀ failure, selection mode xs table = .error failure →
      ∃ index field, failure = .missingRunnerField index field ∧
        ((∃ ids, selection mode ys table = .ok ids) ∨
          ∃ index' field', selection mode ys table = .error (.missingRunnerField index' field') ∧
            ¬ ReadBefore (index', field') (index, field)) ∧
        ∀ r, ys[index]? = some r → r.Lacks field → selection mode ys table = .error failure := by
  refine ⟨fun ids hids => ?_, fun failure hfailure => ?_⟩
  · obtain ⟨hc, rfl⟩ := selection_eq_ok_iff.mp hids
    obtain ⟨hcomplete, hsame⟩ := complete_filled h hc
    exact selection_eq_ok_iff.mpr ⟨hcomplete, hsame.symm⟩
  · obtain ⟨index, field, hx, rfl⟩ := selection_eq_error_iff.mp hfailure
    refine ⟨index, field, rfl, ?_, fun r hr hl => ?_⟩
    · cases hout : selection mode ys table with
      | ok ids => exact .inl ⟨ids, rfl⟩
      | error failure' =>
        obtain ⟨index', field', hy, rfl⟩ := selection_eq_error_iff.mp hout
        exact .inr ⟨index', field', rfl, not_before_filled h hx hy⟩
    · exact selection_eq_error_iff.mpr ⟨index, field, firstIncomplete_filled h hx hr hl, rfl⟩

/-- A runner of which nothing is known misses its status, and its busy flag once it is said to be online;
one that is said to be offline may be filled in with anything. -/
theorem filling_in_busy :
    let table : Table := ⟨[⟨"a", "1"⟩]⟩
    let known : Runner := ⟨some "a", some .online, some true⟩
    (List.Forall₂ FilledIn [known, {}] [known, ⟨none, some .online, none⟩] ∧
      selection .onlineBusy [known, {}] table = .error (.missingRunnerField 1 .status) ∧
      ∃ index field, selection .onlineBusy [known, ⟨none, some .online, none⟩] table =
          .error (.missingRunnerField index field) ∧ ¬ ReadBefore (index, field) (1, .status)) ∧
    List.Forall₂ FilledIn [known, ⟨none, some .offline, none⟩]
        [known, ⟨some "a", some .offline, some true⟩] ∧
      selection .onlineBusy [known, ⟨none, some .offline, none⟩] table = .ok ["1"] ∧
      selection .onlineBusy [known, ⟨some "a", some .offline, some true⟩] table = .ok ["1"] := by
  intro table known
  have hsame : FilledIn known known := ⟨fun _ => rfl, fun _ => rfl, fun _ => rfl⟩
  have honline : List.Forall₂ FilledIn [known, {}] [known, ⟨none, some .online, none⟩] :=
    .cons hsame (.cons ⟨fun _ => rfl, fun h => absurd rfl h, fun _ => rfl⟩ .nil)
  have hoffline : List.Forall₂ FilledIn [known, ⟨none, some .offline, none⟩]
      [known, ⟨some "a", some .offline, some true⟩] :=
    .cons hsame (.cons ⟨fun h => absurd rfl h, fun _ => rfl, fun h => absurd rfl h⟩ .nil)
  refine ⟨⟨honline, rfl, ?_⟩, hoffline, rfl, (filling_in _ _ hoffline).1 _ rfl⟩
  obtain ⟨index, field, heq, hor, -⟩ := (filling_in .onlineBusy table honline).2 _ rfl
  cases heq
  rcases hor with ⟨ids, hids⟩ | ⟨index', field', herror, hbefore⟩
  · cases hids
  · exact ⟨index', field', herror, hbefore⟩

end BuildFleet.Selection
