import BuildFleet.Proofs.Selection.Required

/-!
# Selection — runners in two parts

The runners are gone through one after the other, so it makes no difference whether a selection is made
among all of them at once, or first among the first of them and then among the others.  Only the others
have to be counted from where they stand.

* `ofRunners_append`: a walk through two lists of runners is a walk through one and then through the other.
* `ofRunners_later`: runners that stand further back leave the same ids, or the same failure further back.
* `selection_append`: the selection among two lists of runners, by the selections among each.
* `selection_in_parts`: the three cases of this, and where a failure is found.
-/

namespace BuildFleet

/-- The failure of runners that stand this many places further back. -/
def Failure.later (places : Nat) : Failure → Failure
  | .missingRunnerField index field => .missingRunnerField (places + index) field
  | failure => failure

namespace Selection

variable {mode : Mode} {table : Table} {xs ys runners : List Runner}

/-! ### From runner to runner -/

theorem ofRunners_append (mode : Mode) (table : Table) (start : Nat) (xs ys : List Runner) :
    ofRunners mode table start (xs ++ ys) =
      ofRunners mode table start xs >>= fun a =>
        ofRunners mode table (start + xs.length) ys >>= fun b => .ok (a ++ b) := by
  induction xs generalizing start with
  | nil =>
    rw [List.nil_append, List.length_nil, Nat.add_zero]
    cases ofRunners mode table start ys <;> rfl
  | cons r rest ih =>
    have hlength : start + (r :: rest).length = start + 1 + rest.length := by
      rw [List.length_cons]
      omega
    rw [List.cons_append, ofRunners, ofRunners, hlength, ih]
    -- whichever step fails first, it is the same one on both sides
    cases ofRunner mode table r with
    | error field => rfl
    | ok ids =>
      cases ofRunners mode table (start + 1) rest with
      | error failure => rfl
      | ok a =>
        cases ofRunners mode table (start + 1 + rest.length) ys with
        | error failure => rfl
        | ok b => exact congrArg Except.ok (List.append_assoc ids a b).symm

/-- Runners that stand further back differ in where a failure is found, and in nothing else. -/
theorem ofRunners_later (mode : Mode) (table : Table) (places start : Nat) (runners : List Runner) :
    ofRunners mode table (places + start) runners =
      (ofRunners mode table start runners).mapError (Failure.later places) := by
  induction runners generalizing start with
  | nil => rfl
  | cons r rest ih =>
    rw [ofRunners, ofRunners, Nat.add_assoc, ih]
    cases ofRunner mode table r with
    | error field => rfl
    | ok ids => cases ofRunners mode table (start + 1) rest <;> rfl

/-! ### The selection -/

/-- The selection among two lists of runners. -/
theorem selection_append (mode : Mode) (table : Table) (xs ys : List Runner) :
    selection mode (xs ++ ys) table =
      selection mode xs table >>= fun a =>
        (selection mode ys table).mapError (Failure.later xs.length) >>= fun b => .ok (a ++ b) := by
  have hys := ofRunners_later mode table xs.length 0 ys
  rw [Nat.add_zero] at hys
  rw [selection, ofRunners_append, Nat.zero_add, hys]
  rfl

theorem selection_append_of_error {failure : Failure} (h : selection mode xs table = .error failure) :
    selection mode (xs ++ ys) table = .error failure := by
  rw [selection_append, h]
  rfl

theorem selection_append_of_ok {a b : List String} (hxs : selection mode xs table = .ok a)
    (hys : selection mode ys table = .ok b) : selection mode (xs ++ ys) table = .ok (a ++ b) := by
  rw [selection_append, hxs, hys]
  rfl

theorem selection_append_of_later {a : List String} {index : Nat} {field : RunnerField}
    (hxs : selection mode xs table = .ok a)
    (hys : selection mode ys table = .error (.missingRunnerField index field)) :
    selection mode (xs ++ ys) table = .error (.missingRunnerField (xs.length + index) field) := by
  rw [selection_append, hxs, hys]
  rfl

/-- A failure is that of one runner alone, and its index is the number of those in front of it, which
leave none. -/
theorem selection_eq_error_iff_parts {failure : Failure} :
    selection mode runners table = .error failure ↔
      ∃ before r after field, runners = before ++ r :: after ∧
        (∃ ids, selection mode before table = .ok ids) ∧
        selection mode [r] table = .error (.missingRunnerField 0 field) ∧
        failure = .missingRunnerField before.length field := by
  refine ⟨fun h => ?_, ?_⟩
  · obtain ⟨index, field, ⟨⟨r, hr, hmissed⟩, hearlier⟩, rfl⟩ := selection_eq_error_iff.mp h
    obtain ⟨hindex, rfl⟩ := List.getElem?_eq_some_iff.mp hr
    have hlength : (runners.take index).length = index := List.length_take_of_le (Nat.le_of_lt hindex)
    have hbefore : ∀ r ∈ runners.take index, Complete mode table r := by
      intro r hr
      obtain ⟨earlier, hlt, rfl⟩ := List.mem_take_iff_getElem.mp hr
      exact hearlier earlier _ (by omega) (List.getElem?_eq_getElem _)
    refine ⟨runners.take index, runners[index], runners.drop (index + 1), field, ?_, ?_, ?_, ?_⟩
    · rw [← List.drop_eq_getElem_cons hindex, List.take_append_drop]
    · exact exists_selection_iff.mpr hbefore
    · exact selection_eq_error_iff.mpr ⟨0, field, firstIncomplete_cons_zero.mpr hmissed, rfl⟩
    · rw [hlength]
  · rintro ⟨before, r, after, field, rfl, ⟨ids, hids⟩, hr, rfl⟩
    have hrest : selection mode (r :: after) table = .error (.missingRunnerField 0 field) :=
      selection_append_of_error hr
    exact selection_append_of_later hids hrest

/-- **A selection among runners in two parts.**  A failure in the first part is the failure.  If there is
none, the ids of the second part come behind those of the first, or its failure is the failure, with its
index counted through the first part.  So an index always counts the runners in front of the one that is
refused, whether they are selected or not. -/
theorem selection_in_parts (mode : Mode) (table : Table) (xs ys : List Runner) :
    (∀ failure, selection mode xs table = .error failure →
      selection mode (xs ++ ys) table = .error failure) ∧
    (∀ a b, selection mode xs table = .ok a → selection mode ys table = .ok b →
      selection mode (xs ++ ys) table = .ok (a ++ b)) ∧
    (∀ a index field, selection mode xs table = .ok a →
      selection mode ys table = .error (.missingRunnerField index field) →
      selection mode (xs ++ ys) table = .error (.missingRunnerField (xs.length + index) field)) ∧
    ∀ runners failure, selection mode runners table = .error failure ↔
      ∃ before r after field, runners = before ++ r :: after ∧
        (∃ ids, selection mode before table = .ok ids) ∧
        selection mode [r] table = .error (.missingRunnerField 0 field) ∧
        failure = .missingRunnerField before.length field :=
  ⟨fun _ => selection_append_of_error, fun _ _ => selection_append_of_ok,
    fun _ _ _ => selection_append_of_later, fun _ _ => selection_eq_error_iff_parts⟩

/-- Two runners of which one is selected, and then one that is passed by and one that lacks its name. -/
theorem selection_in_parts_nameless :
    let idle : Runner := ⟨some "idle", some .online, some false⟩
    let busy : Runner := ⟨some "busy", some .online, some true⟩
    let nameless : Runner := ⟨none, some .online, some false⟩
    let table : Table := ⟨[⟨"idle", "1"⟩, ⟨"idle", "2"⟩]⟩
    selection .onlineNotBusy [busy, nameless] table = .error (.missingRunnerField 1 .name) ∧
      selection .onlineNotBusy [idle, busy, busy, nameless] table =
        .error (.missingRunnerField 3 .name) ∧
      selection .onlineNotBusy [nameless, busy, idle] table = .error (.missingRunnerField 0 .name) ∧
      selection .onlineNotBusy [idle, busy, idle] table = .ok ["1", "2", "1", "2"] := by
  intro idle busy nameless table
  have hidle : selection .onlineNotBusy [idle, busy] table = .ok ["1", "2"] := rfl
  have hlast : selection .onlineNotBusy [idle] table = .ok ["1", "2"] := rfl
  have hnameless : selection .onlineNotBusy [nameless] table = .error (.missingRunnerField 0 .name) := rfl
  have hlater : selection .onlineNotBusy [busy, nameless] table = .error (.missingRunnerField 1 .name) :=
    rfl
  refine ⟨hlater, ?_, ?_, ?_⟩
  · exact (selection_in_parts .onlineNotBusy table [idle, busy] _).2.2.1 _ 1 .name hidle hlater
  · exact (selection_in_parts .onlineNotBusy table [nameless] [busy, idle]).1 _ hnameless
  · exact (selection_in_parts .onlineNotBusy table [idle, busy] [idle]).2.1 _ _ hidle hlast

end Selection

end BuildFleet
