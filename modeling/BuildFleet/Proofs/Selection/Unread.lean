import Mathlib.Data.List.Forall2
import BuildFleet.Proofs.Selection.Required

/-!
# Selection — what is not read makes no difference

Two runners are *alike* for a mode and a table if they agree on what has to be read of them: on the
status as far as the mode asks for it, on the busy flag of a runner that is online if the mode asks
for it, and on the name of a runner that the mode wants if there are machines to compare it with
(`Alike`).  All else may differ between them, or be absent from one of them.

* `ofRunner_congr`: runners that are alike contribute the same, or are refused for the same field.
* `select_congr`: lists of runners that are alike give the same selection.  A field of one runner
  that is not read (`Unread`) may be changed without any difference.
-/

namespace BuildFleet.Selection

/-- A mode cannot tell these statuses apart: both are offline or neither, where the mode asks for
runners that are offline, and both are online or neither otherwise. -/
def Indistinct (mode : Mode) (status status' : Status) : Prop :=
  if mode = .offline then status.isOffline = status'.isOffline
  else status.isOnline = status'.isOnline

/-- The runners agree on what has to be read of them. -/
structure Alike (mode : Mode) (table : Table) (r r' : Runner) : Prop where
  status : mode.isRecognized → (r.status = none ∧ r'.status = none) ∨
    ∃ s s', r.status = some s ∧ r'.status = some s' ∧ Indistinct mode s s'
  busy : mode = .onlineNotBusy ∨ mode = .onlineBusy → r.status = some .online → r.busy = r'.busy
  name : mode.Wants r → table.machines ≠ [] → r.name = r'.name

/-- The second runner is the first with one field changed, added or removed that is not read. -/
inductive Unread (mode : Mode) (table : Table) (r : Runner) : Runner → Prop where
  /-- The text of a status that is neither online nor offline. -/
  | status {text text' : String} : r.status = some (.other text) →
      Unread mode table r { r with status := some (.other text') }
  /-- Any status, if the mode is not recognized. -/
  | anyStatus {status : Option Status} : mode.isRecognized = false →
      Unread mode table r { r with status }
  /-- The busy flag, unless the runner is online. -/
  | busy {busy : Option Bool} : r.status ≠ some .online → Unread mode table r { r with busy }
  /-- The busy flag of any runner, if the mode does not ask for it. -/
  | anyBusy {busy : Option Bool} : mode ≠ .onlineNotBusy → mode ≠ .onlineBusy →
      Unread mode table r { r with busy }
  /-- The name of a runner that the mode does not want. -/
  | name {name : Option String} : ¬ mode.Wants r → Unread mode table r { r with name }
  /-- The name of any runner, if there are no machines. -/
  | anyName {name : Option String} : table.machines = [] → Unread mode table r { r with name }

variable {mode : Mode} {table : Table} {r r' : Runner}

/-! ### One runner -/

theorem isOnline_eq_true_iff {s : Status} : s.isOnline = true ↔ s = .online := by
  cases s <;> simp [Status.isOnline]

/-- A runner that a mode selects is one that it wants. -/
theorem wants_of_selects (h : mode.selects r = .ok true) : mode.Wants r := by
  obtain ⟨name, status, busy⟩ := r
  cases mode with
  | unrecognized => cases h
  | online | offline =>
    rcases status with _ | _ | _ | _ <;> cases h
    rfl
  | onlineNotBusy | onlineBusy =>
    rcases status with _ | _ | _ | _ <;> rcases busy with _ | _ | _ <;> cases h
    exact ⟨rfl, rfl⟩

/-- A mode selects both of two runners that are alike or neither, or is in want of the same field. -/
theorem Alike.selects_eq (h : Alike mode table r r') : mode.selects r = mode.selects r' := by
  obtain ⟨name, status, busy⟩ := r
  obtain ⟨name', status', busy'⟩ := r'
  cases mode with
  | unrecognized => rfl
  | online | offline =>
    rcases h.status rfl with ⟨rfl : status = none, rfl : status' = none⟩ |
      ⟨s, s', rfl : status = some s, rfl : status' = some s', hs⟩
    · rfl
    · exact congrArg Except.ok hs
  | onlineNotBusy | onlineBusy =>
    rcases h.status rfl with ⟨rfl : status = none, rfl : status' = none⟩ |
      ⟨s, s', rfl : status = some s, rfl : status' = some s', hs⟩
    · rfl
    · have hs : s.isOnline = s'.isOnline := hs
      by_cases hon : s.isOnline = true
      · -- only now is the busy flag read
        obtain rfl := isOnline_eq_true_iff.mp hon
        obtain rfl := isOnline_eq_true_iff.mp hs.symm
        obtain rfl : busy = busy' := h.busy (by simp) rfl
        rfl
      · rw [Bool.not_eq_true] at hon
        simp [Mode.selects, Runner.requireStatus, bind, Except.bind, hon, ← hs]

theorem ofRunner_congr (h : Alike mode table r r') :
    ofRunner mode table r = ofRunner mode table r' := by
  rw [ofRunner, ofRunner, ← h.selects_eq]
  cases hsel : mode.selects r with
  | error field => rfl
  | ok selected =>
    -- the name is read of a runner that is selected, if there are machines
    by_cases hread : (selected && !table.isEmpty) = true
    · rw [Bool.and_eq_true, Bool.not_eq_true'] at hread
      obtain ⟨rfl, ht⟩ := hread
      have hmachines : table.machines ≠ [] := by simpa [Table.isEmpty] using ht
      have hname : r.requireName = r'.requireName := by
        rw [Runner.requireName, Runner.requireName, h.name (wants_of_selects hsel) hmachines]
      simp only [bind, Except.bind, hname]
    · simp only [bind, Except.bind, hread]
      rfl

/-- Runners of which all that has to be read is the same are alike. -/
theorem alike_of_status_eq (hs : r.status = r'.status)
    (hb : mode = .onlineNotBusy ∨ mode = .onlineBusy → r.status = some .online → r.busy = r'.busy)
    (hn : mode.Wants r → table.machines ≠ [] → r.name = r'.name) : Alike mode table r r' := by
  refine ⟨fun _ => ?_, hb, hn⟩
  cases h : r.status with
  | none => exact .inl ⟨rfl, hs.symm.trans h⟩
  | some s =>
    refine .inr ⟨s, s, rfl, hs.symm.trans h, ?_⟩
    unfold Indistinct
    split <;> rfl

/-- A field that is not read leaves the runner alike. -/
theorem Unread.alike (h : Unread mode table r r') : Alike mode table r r' := by
  cases h with
  | @status text text' hs =>
    refine ⟨fun _ => .inr ⟨_, _, hs, rfl, ?_⟩, fun _ ho => ?_, fun _ _ => rfl⟩
    · unfold Indistinct
      split <;> rfl
    · cases hs.symm.trans ho
  | anyStatus hm =>
    refine ⟨fun hr => ?_, fun _ _ => rfl, fun _ _ => rfl⟩
    rw [hm] at hr
    cases hr
  | busy hs => exact alike_of_status_eq rfl (fun _ ho => absurd ho hs) fun _ _ => rfl
  | anyBusy hi hb => exact alike_of_status_eq rfl (fun hm => (hm.elim hi hb).elim) fun _ _ => rfl
  | name hw => exact alike_of_status_eq rfl (fun _ _ => rfl) fun h => absurd h hw
  | anyName ht => exact alike_of_status_eq rfl (fun _ _ => rfl) fun _ hne => absurd ht hne

/-! ### Several runners -/

theorem ofRunners_congr {xs ys : List Runner} (h : List.Forall₂ (Alike mode table) xs ys)
    (start : Nat) : ofRunners mode table start xs = ofRunners mode table start ys := by
  induction h generalizing start with
  | nil => rfl
  | cons hr _ ih => rw [ofRunners, ofRunners, ofRunner_congr hr, ih]

theorem select_of_alike {xs ys : List Runner} (h : List.Forall₂ (Alike mode table) xs ys) :
    select mode xs table = select mode ys table := by
  rw [select, select, selection, selection, ofRunners_congr h, h.length_eq]

theorem Alike.refl (mode : Mode) (table : Table) (r : Runner) : Alike mode table r r :=
  alike_of_status_eq rfl (fun _ _ => rfl) fun _ _ => rfl

/-- **What is not read makes no difference.**  Lists of runners that are alike, position by position,
give the same selection: the same ids, or the same runner and field that are missed.  So does a list
in which a field of one runner is changed, added or removed that is not read. -/
theorem select_congr (mode : Mode) (table : Table) :
    (∀ xs ys, List.Forall₂ (Alike mode table) xs ys → select mode xs table = select mode ys table) ∧
    ∀ before r r' after, Unread mode table r r' →
      select mode (before ++ r :: after) table = select mode (before ++ r' :: after) table := by
  refine ⟨fun xs ys h => select_of_alike h, fun before r r' after h => select_of_alike ?_⟩
  have hrefl : ∀ rs, List.Forall₂ (Alike mode table) rs rs :=
    fun rs => List.forall₂_same.mpr fun r _ => Alike.refl mode table r
  exact List.rel_append (hrefl before) (.cons h.alike (hrefl after))

/-- A runner of which the status is all that is read, and one of which the name is not; and with no
machines the name of any runner. -/
theorem select_congr_onlineBusy :
    (List.Forall₂ (Alike .onlineBusy ⟨[⟨"m", "id"⟩]⟩)
        [⟨some "m", some .online, some true⟩, ⟨some "x", some (.other "starting"), none⟩,
          ⟨none, some .online, some false⟩]
        [⟨some "m", some .online, some true⟩, ⟨none, some .offline, some true⟩,
          ⟨some "m", some .online, some false⟩] ∧
      select .onlineBusy
          [⟨some "m", some .online, some true⟩, ⟨some "x", some (.other "starting"), none⟩,
            ⟨none, some .online, some false⟩] ⟨[⟨"m", "id"⟩]⟩ =
        select .onlineBusy
          [⟨some "m", some .online, some true⟩, ⟨none, some .offline, some true⟩,
            ⟨some "m", some .online, some false⟩] ⟨[⟨"m", "id"⟩]⟩) ∧
    (Unread .online ⟨[]⟩ ⟨some "m", some .online, none⟩ ⟨none, some .online, none⟩ ∧
      select .online [⟨some "m", some .online, none⟩] ⟨[]⟩ =
        select .online [⟨none, some .online, none⟩] ⟨[]⟩) := by
  have hfirst : Alike .onlineBusy ⟨[⟨"m", "id"⟩]⟩ ⟨some "m", some .online, some true⟩
      ⟨some "m", some .online, some true⟩ := Alike.refl ..
  have hsecond : Alike .onlineBusy ⟨[⟨"m", "id"⟩]⟩ ⟨some "x", some (.other "starting"), none⟩
      ⟨none, some .offline, some true⟩ :=
    ⟨fun _ => .inr ⟨_, _, rfl, rfl, rfl⟩, fun _ h => (by cases h), fun h _ => (by cases h.1)⟩
  have hthird : Alike .onlineBusy ⟨[⟨"m", "id"⟩]⟩ ⟨none, some .online, some false⟩
      ⟨some "m", some .online, some false⟩ :=
    ⟨fun _ => .inr ⟨_, _, rfl, rfl, rfl⟩, fun _ _ => rfl, fun h _ => (by cases h.2)⟩
  have hall := List.Forall₂.cons hfirst (.cons hsecond (.cons hthird .nil))
  have hname : Unread .online ⟨[]⟩ ⟨some "m", some .online, none⟩ ⟨none, some .online, none⟩ :=
    .anyName rfl
  exact ⟨⟨hall, (select_congr _ _).1 _ _ hall⟩, hname, (select_congr _ _).2 [] _ _ [] hname⟩

end BuildFleet.Selection
