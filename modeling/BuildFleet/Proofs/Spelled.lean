import BuildFleet.Proofs.Json.Fronts
import BuildFleet.Proofs.Machine.Reading
import BuildFleet.Proofs.Runner.Listing
import BuildFleet.Proofs.Selection.Reference

/-!
# Strings of listings and tables

Names, ids and statuses are strings, and so are the keys that they stand under.  There are many ways to
spell a string, and each of them is read as that string, in whatever way the bytes are delivered.

First it is said where in a listing or a table these strings stand, by what stands in front of them
(`Listing.Before`, `Table.Before`).

* `Json.Reader.TextBehind.readAsSpelled`: behind a front where a reader comes to a string, a literal is read
  for its string, another literal of it would make no difference, and one that spells nothing is refused.
* `Json.Reader.TextBehind.heldAsSpelled`: where the string is held, any other would be held as well.
* `Listing.stringsAsSpelled`, `Table.stringsAsSpelled`: this is so of all the strings of a listing or a
  table, and what is held stands there as a literal.
* `Selection.joined_iff_spelled`: so a runner and a machine are joined if some string is spelled as the name
  of both.
* `strings_as_spelled`: all of this together.

Keys and strings inside of a value that is passed over are not read, and not meant here.
-/

namespace BuildFleet
open Json

/-! ### Where strings stand -/

/-- The text of a field of a machine. -/
def Machine.text (m : Machine) : MachineField → String
  | .name => m.name
  | .id => m.id

/-- The text of a field of a runner, if it has one. -/
def Runner.text? (r : Runner) : RunnerField → Option String
  | .name => r.name
  | .status => r.status.map Status.text
  | .busy => none

namespace Table

def text? (j : Nat) (field : MachineField) (t : Table) : Option String :=
  t.machines[j]?.map (·.text field)

/-- What stands in a table in front of the value of a field of the machine at `j`. -/
inductive Before (j : Nat) (field : MachineField) : Bytes → Prop where
  | machine {gap begun front : Bytes} {machines : List Machine} : Blanks gap →
      Begun MachineText true machines begun → machines.length = j → Machine.layout.Before field front →
      Before j field (gap ++ (openBracket :: begun ++ front))

/-- What stands in a table in front of a key. -/
inductive BeforeKey : Bytes → Prop where
  | machine {gap begun front : Bytes} {machines : List Machine} : Blanks gap →
      Begun MachineText true machines begun → Machine.layout.BeforeKey front →
      BeforeKey (gap ++ (openBracket :: begun ++ front))

end Table

namespace Listing

def text? (i : Nat) (field : RunnerField) (runners : List Runner) : Option String :=
  runners[i]?.bind (·.text? field)

/-- What stands in a listing in front of the name or the status of the runner at `i`. -/
inductive Before (i : Nat) (field : RunnerField) : Bytes → Prop where
  | runner {gap outer begun front : Bytes} {runners : List Runner} : field ≠ .busy → Blanks gap →
      layout.Before () outer → Begun RunnerText true runners begun → runners.length = i →
      Runner.layout.Before field front → Before i field (gap ++ (outer ++ (openBracket :: begun ++ front)))

/-- What stands in a listing in front of a key. -/
inductive BeforeKey : Bytes → Prop where
  | listing {gap front : Bytes} : Blanks gap → layout.BeforeKey front → BeforeKey (gap ++ front)
  | runner {gap outer begun front : Bytes} {runners : List Runner} : Blanks gap → layout.Before () outer →
      Begun RunnerText true runners begun → Runner.layout.BeforeKey front →
      BeforeKey (gap ++ (outer ++ (openBracket :: begun ++ front)))

end Listing

/-! ### Literals in their places -/

/-- Behind one of these fronts stands a literal of the string. -/
inductive Spelled (Before : Bytes → Prop) (s : String) : Bytes → Prop where
  | literal {front literal : Bytes} (rest : Bytes) : Before front → StringLiteral s literal →
      Spelled Before s (front ++ literal ++ rest)

/-- A literal that spells nothing. -/
inductive BrokenLiteral : Bytes → Prop where
  | quoted {body : Bytes} : Inside body → Broken body → BrokenLiteral (quote :: body ++ [quote])

/-- Behind `front` a literal is read for the string that it spells. -/
structure ReadAsSpelled {α : Type} (read : Bytes → Attempt Failure α) (invalid : Json.Error → Failure)
    (front : Bytes) : Prop where
  /-- If anything is read, a literal is. -/
  literal {rest : Bytes} {v : α} : (read (front ++ quote :: rest)).outcome = .ok v →
    ∃ s literal back, StringLiteral s literal ∧ quote :: rest = literal ++ back
  /-- Any other literal of its string makes no difference. -/
  alike {s : String} {literal literal' rest : Bytes} {v : α} : StringLiteral s literal →
    StringLiteral s literal' → (read (front ++ literal ++ rest)).outcome = .ok v →
    (read (front ++ literal' ++ rest)).outcome = .ok v
  /-- One that spells nothing is refused. -/
  refused {literal rest : Bytes} : BrokenLiteral literal →
    ∃ error, read (front ++ literal ++ rest) = .fail (invalid error)

/-- And then this string is what is held there. -/
structure HeldAsSpelled {α : Type} (read : Bytes → Attempt Failure α) (invalid : Json.Error → Failure)
    (front : Bytes) (Shows : String → α → Prop) : Prop extends ReadAsSpelled read invalid front where
  shows {s : String} {literal rest : Bytes} {v : α} : StringLiteral s literal →
    (read (front ++ literal ++ rest)).outcome = .ok v → Shows s v
  /-- Any literal of any other string would be read as well, for that string. -/
  any {s s' : String} {literal literal' rest : Bytes} {v : α} : StringLiteral s literal →
    StringLiteral s' literal' → (read (front ++ literal ++ rest)).outcome = .ok v →
    ∃ v', (read (front ++ literal' ++ rest)).outcome = .ok v' ∧ Shows s' v'

/-- All strings of a value are read as they are spelled: the keys, and the strings of fields, where `text?`
gives what is held in a field of the entry at an index. -/
structure StringsAsSpelled {Field α : Type} (read : Bytes → Attempt Failure α)
    (invalid : Json.Error → Failure) (Whole : α → Bytes → Prop) (Before : Nat → Field → Bytes → Prop)
    (BeforeKey : Bytes → Prop) (text? : Nat → Field → α → Option String) : Prop where
  /-- Bytes are read for a value exactly if they spell it. -/
  whole (bytes : Bytes) (v : α) : (read bytes).outcome = .ok v ↔ Whole v bytes
  /-- The string of a field is held as it is spelled. -/
  field {i : Nat} {field : Field} {front : Bytes} : Before i field front →
    HeldAsSpelled read invalid front fun s v => text? i field v = some s
  /-- A key is read as it is spelled. -/
  key {front : Bytes} : BeforeKey front → ReadAsSpelled read invalid front
  /-- The strings that are held are those that stand in the bytes as literals. -/
  placed {bytes : Bytes} {v : α} {i : Nat} {field : Field} {s : String} : (read bytes).outcome = .ok v →
    (Spelled (Before i field) s bytes ↔ text? i field v = some s)

theorem stringLiteral_iff {s : String} {body : Bytes} :
    StringLiteral s (quote :: body ++ [quote]) ↔ Spelling s.toList body := by
  refine ⟨fun h => ?_, .quoted⟩
  generalize hw : quote :: body ++ [quote] = whole at h
  cases h with
  | quoted hbody =>
    obtain rfl := List.append_cancel_right (List.cons.inj hw).2
    exact hbody

theorem BrokenLiteral.not_read {literal : Bytes} (h : BrokenLiteral literal) (e : Ending) (rest : Bytes) :
    ∃ fault, Reader.string.read e (literal ++ rest) = .error fault := by
  cases h with
  | @quoted body hin hbroken =>
    obtain ⟨fault, htext⟩ := readText_of_broken hin hbroken rest
    refine ⟨fault, ?_⟩
    rw [show quote :: body ++ [quote] ++ rest = quote :: (body ++ quote :: rest) by simp]
    dsimp only [Reader.string]
    rw [readValue_cons rfl]
    exact htext

theorem BrokenLiteral.not_read_status {literal : Bytes} (h : BrokenLiteral literal) (e : Ending)
    (rest : Bytes) : ∃ fault, Status.reader.read e (literal ++ rest) = .error fault := by
  obtain ⟨fault, hread⟩ := h.not_read e rest
  refine ⟨fault, ?_⟩
  show Reader.string.read e (literal ++ rest) >>= _ = _
  rw [hread]
  rfl

section Behind

variable {α β : Type} {r : Reader β} {f : α → β} {read : Bytes → Attempt Failure α}
  {invalid : Json.Error → Failure} {delivery : Delivery} {gap front : Bytes}
  {Alike : String → String → Prop} {Shown : String → β → Prop}

/-- An input with a literal behind a front is read as its string has it. -/
theorem parse_literal {back : Bytes} {Goes : String → Bytes → β → Prop}
    (hparse : ∀ delivery rest v, r.parse ⟨front ++ quote :: rest, delivery, .closed⟩ = .ok v ↔
      ∃ s back, readText .closed rest = .ok (s, back) ∧ Goes s back v) {s : String} {literal : Bytes}
    (h : StringLiteral s literal) {v : β} :
    r.parse ⟨front ++ literal ++ back, delivery, .closed⟩ = .ok v ↔ Goes s back v := by
  cases h with
  | @quoted body hbody =>
    have hsplit : front ++ (quote :: body ++ [quote]) ++ back =
        front ++ quote :: (body ++ quote :: back) := by simp
    have htext : readText .closed (body ++ quote :: back) = .ok (s, back) :=
      readText_eq_ok_iff.mpr ⟨body, hbody, rfl⟩
    rw [hsplit, hparse, htext]
    refine ⟨?_, fun h => ⟨s, back, rfl, h⟩⟩
    rintro ⟨s', back', heq, h⟩
    cases heq
    exact h

/-- Behind a front where its reader comes to a string. -/
theorem Json.Reader.TextBehind.readAsSpelled (h : r.TextBehind front Alike Shown) (hg : Blanks gap)
    (hok : ∀ {bytes v}, (read bytes).outcome = .ok v ↔ r.parse ⟨bytes, delivery, .closed⟩ = .ok (f v))
    (herror : ∀ {bytes error}, r.parse ⟨bytes, delivery, .closed⟩ = .error error →
      read bytes = .fail (invalid error)) : ReadAsSpelled read invalid (gap ++ front) := by
  obtain ⟨Goes, -, hparse⟩ := h.exists_parse hg
  refine ⟨?_, ?_, ?_⟩
  · intro rest v hv
    obtain ⟨s, back, htext, -⟩ := (hparse delivery rest _).mp (hok.mp hv)
    obtain ⟨body, hbody, rfl⟩ := readText_eq_ok_iff.mp htext
    exact ⟨s, _, back, .quoted hbody, by simp⟩
  · intro s literal literal' rest v hl hl' hv
    rw [hok, parse_literal hparse hl] at hv
    rwa [hok, parse_literal hparse hl']
  · rintro _ rest ⟨hin, hbroken⟩
    rename_i body
    obtain ⟨fault, htext⟩ := readText_of_broken (e := .closed) hin hbroken rest
    have hsplit : gap ++ front ++ (quote :: body ++ [quote]) ++ rest =
        gap ++ front ++ quote :: (body ++ quote :: rest) := by simp
    rw [hsplit]
    cases hresult : r.parse ⟨gap ++ front ++ quote :: (body ++ quote :: rest), delivery, .closed⟩ with
    | error error => exact ⟨error, herror hresult⟩
    | ok v =>
      obtain ⟨s, back, htext', -⟩ := (hparse delivery _ v).mp hresult
      rw [htext] at htext'
      cases htext'

/-- Where the string is held, and any other would do as well. -/
theorem Json.Reader.TextBehind.heldAsSpelled {Shows : String → α → Prop}
    (h : r.TextBehind front (fun _ _ => True) Shown) (hg : Blanks gap)
    (hok : ∀ {bytes v}, (read bytes).outcome = .ok v ↔ r.parse ⟨bytes, delivery, .closed⟩ = .ok (f v))
    (herror : ∀ {bytes error}, r.parse ⟨bytes, delivery, .closed⟩ = .error error →
      read bytes = .fail (invalid error))
    (hshows : ∀ {s w}, Shown s w → ∃ v, f v = w ∧ Shows s v)
    (hf : ∀ {v v'}, f v = f v' → v = v') :
    HeldAsSpelled read invalid (gap ++ front) Shows := by
  obtain ⟨Goes, hshown, hparse⟩ := h.exists_parse hg
  refine ⟨h.readAsSpelled hg hok herror, ?_, ?_⟩
  · intro s literal rest v hl hv
    rw [hok, parse_literal hparse hl] at hv
    obtain ⟨v', hv', hs⟩ := hshows (hshown _ _ _ hv).1
    exact hf hv' ▸ hs
  · intro s s' literal literal' rest v hl hl' hv
    rw [hok, parse_literal hparse hl] at hv
    obtain ⟨w, hw⟩ := (hshown _ _ _ hv).2 s' trivial
    obtain ⟨v', rfl, hs⟩ := hshows (hshown _ _ _ hw).1
    exact ⟨v', hok.mpr ((parse_literal hparse hl').mpr hw), hs⟩

end Behind

/-! ### Machines -/

/-- The name and the id of a machine are strings. -/
theorem Machine.field_textBehind (field : MachineField) :
    (Machine.layout.reader field).TextBehind [] (fun _ _ => True) fun s v => v = some s :=
  (Reader.string_textBehind.map some).imp fun ⟨_, hs, hv⟩ => hs ▸ hv.symm

/-- Any name and any id will do. -/
theorem Machine.exchanges (field : MachineField) :
    Machine.layout.Exchanges field fun s v => v = some s := by
  rintro c m _ s v hc - rfl
  obtain ⟨hname, hid⟩ := Machine.build_eq_ok_iff.mp hc
  cases field with
  | name => exact ⟨⟨s, m.id⟩, Machine.build_eq_ok_iff.mpr ⟨rfl, hid⟩⟩
  | id => exact ⟨⟨m.name, s⟩, Machine.build_eq_ok_iff.mpr ⟨hname, rfl⟩⟩

theorem Machine.textBehind {field : MachineField} {front : Bytes} (h : Machine.layout.Before field front) :
    Machine.record.reader.TextBehind front (fun _ _ => True) fun s m => m.text field = s := by
  have hread := h.textBehind (Reader.string_passesBlanks.map some) (exchanges field) (field_textBehind field)
  rw [List.append_nil] at hread
  refine hread.imp ?_
  rintro s m ⟨c, hc, hget⟩
  obtain ⟨hname, hid⟩ := Machine.build_eq_ok_iff.mp hc
  cases field with
  | name => exact Option.some.inj (hname.symm.trans hget)
  | id => exact Option.some.inj (hid.symm.trans hget)

/-- The literal of a name or an id. -/
theorem MachineText.exists_literal {m : Machine} {text : Bytes} (h : MachineText m text)
    (field : MachineField) : ∃ front literal rest, Machine.layout.Before field front ∧
      StringLiteral (m.text field) literal ∧ text = front ++ literal ++ rest := by
  obtain ⟨s, hf, hbuild⟩ := machineText_iff.mp h
  have hget : Machine.layout.get field s = some (m.text field) := by
    obtain ⟨hname, hid⟩ := Machine.build_eq_ok_iff.mp hbuild
    cases field with
    | name => exact hname
    | id => exact hid
  rcases hf.exists_before field with hnone | ⟨front, literal, rest, hb, hl, rfl⟩
  · rw [hget] at hnone
    cases field <;> cases hnone
  · rw [hget] at hl
    exact ⟨front, literal, rest, hb, given_some_iff.mp hl, rfl⟩

/-! ### Runners -/

/-- The name and the status of a runner are strings, if they are not null. -/
theorem Runner.field_textBehind {field : RunnerField} (h : field ≠ .busy) :
    (Runner.layout.reader field).TextBehind [] (fun _ _ => True) fun s v =>
      ∀ r : Runner, Runner.layout.get field r = v → r.text? field = some s := by
  cases field with
  | name =>
    refine Reader.string_textBehind.optional.imp ?_
    rintro s _ ⟨v, rfl, rfl⟩ r hr
    exact hr
  | status =>
    refine (Reader.string_textBehind.map Status.ofText).optional.imp ?_
    rintro s _ ⟨_, ⟨v, rfl, rfl⟩, rfl⟩ r hr
    have hstatus : r.status = some (Status.ofText v) := hr
    rw [Runner.text?, hstatus, Option.map_some, Status.text_ofText]
  | busy => exact absurd rfl h

theorem Runner.field_passesBlanks {field : RunnerField} : (Runner.layout.reader field).PassesBlanks := by
  cases field with
  | name => exact Reader.optional_passesBlanks _
  | status => exact Reader.optional_passesBlanks _
  | busy => exact Reader.optional_passesBlanks _

theorem Runner.textBehind {field : RunnerField} {front : Bytes} (hne : field ≠ .busy)
    (h : Runner.layout.Before field front) :
    Runner.record.reader.TextBehind front (fun _ _ => True) fun s r => r.text? field = some s := by
  have hread := h.textBehind field_passesBlanks (fun _ _ _ => ⟨_, rfl⟩) (field_textBehind hne)
  rw [List.append_nil] at hread
  refine hread.imp ?_
  rintro s r ⟨c, hc, hget⟩
  cases hc
  exact hget r rfl

/-- The literal of a name or a status. -/
theorem RunnerText.exists_literal {r : Runner} {text : Bytes} {field : RunnerField} {s : String}
    (h : RunnerText r text) (hs : r.text? field = some s) :
    ∃ front literal rest, Runner.layout.Before field front ∧ StringLiteral s literal ∧
      text = front ++ literal ++ rest := by
  rcases (runnerText_iff.mp h).exists_before field with hnone | ⟨front, literal, rest, hb, hl, rfl⟩
  · cases field with
    | name => cases hs.symm.trans hnone
    | status =>
      have hstatus : r.status = none := hnone
      rw [Runner.text?, hstatus] at hs
      cases hs
    | busy => cases hs
  · refine ⟨front, literal, rest, hb, ?_, rfl⟩
    cases field with
    | name =>
      have hname : OrNull StringLiteral r.name literal := hl
      rw [show r.name = some s from hs] at hname
      cases hname with
      | value hname => exact hname
    | status =>
      obtain ⟨status, hstatus, rfl⟩ := Option.map_eq_some_iff.mp hs
      have hl : OrNull StatusLiteral r.status literal := hl
      rw [hstatus] at hl
      cases hl with
      | value hl =>
        obtain ⟨s, hl, rfl⟩ := statusLiteral_iff.mp hl
        rwa [Status.text_ofText]
    | busy => cases hs

/-! ### Tables -/

namespace Table

theorem outcome_eq_ok_iff {input : Input} {t : Table} :
    (read input).outcome = .ok t ↔ Machine.record.reader.list.parse input = .ok t.machines := by
  cases h : Machine.record.reader.list.parse input with
  | error error => simp [read_of_error h, Attempt.fail, Attempt.ofExcept]
  | ok machines =>
    rw [read_of_ok h]
    refine ⟨fun heq => ?_, fun heq => ?_⟩
    · cases heq
      rfl
    · cases heq
      rfl

theorem outcome_iff_wellShaped {delivery : Delivery} {bytes : Bytes} {t : Table} :
    (read ⟨bytes, delivery, .closed⟩).outcome = .ok t ↔ WellShaped t bytes := by
  rw [outcome_eq_ok_iff, Reader.parse_eq_ok_iff]
  exact reader_reads.readAll_eq_ok_iff

theorem Before.heldAsSpelled {delivery : Delivery} {j : Nat} {field : MachineField} {front : Bytes}
    (h : Before j field front) :
    HeldAsSpelled (fun bytes => read ⟨bytes, delivery, .closed⟩) .invalidTable front
      fun s t => text? j field t = some s := by
  obtain @⟨gap, begun, front, machines, hg, hb, rfl, hf⟩ := h
  refine (Reader.list_textBehind Machine.reader_reads hb (Machine.textBehind hf)).heldAsSpelled hg
    outcome_eq_ok_iff read_of_error ?_ fun h => congrArg Table.mk h
  rintro s ms ⟨m, hm, rfl⟩
  exact ⟨⟨ms⟩, rfl, Option.map_eq_some_iff.mpr ⟨m, hm, rfl⟩⟩

theorem stringsAsSpelled (delivery : Delivery) :
    StringsAsSpelled (fun bytes => read ⟨bytes, delivery, .closed⟩) .invalidTable WellShaped Before BeforeKey
      text? where
  whole bytes t := outcome_iff_wellShaped
  field := Before.heldAsSpelled
  key h := by
    obtain ⟨hg, hb, hf⟩ := h
    exact (Reader.list_textBehind Machine.reader_reads hb hf.textBehind).readAsSpelled hg
      outcome_eq_ok_iff read_of_error
  placed {bytes t j field s} h := by
    refine ⟨?_, fun hs => ?_⟩
    · rintro ⟨rest, hb, hl⟩
      exact hb.heldAsSpelled.shows hl h
    · obtain ⟨m, hm, rfl⟩ := Option.map_eq_some_iff.mp hs
      obtain ⟨gap, text, after, hg, ht, -, rfl⟩ := outcome_iff_wellShaped.mp h
      obtain ⟨begun, mtext, rest, hb, hlength, hm, rfl⟩ := ht.exists_begun hm
      obtain ⟨front, literal, rest', hf, hl, rfl⟩ := hm.exists_literal field
      have hspelled := Spelled.literal (rest' ++ rest ++ after) (Before.machine hg hb hlength hf) hl
      simpa using hspelled

end Table

/-! ### Listings -/

namespace Listing

theorem outcome_eq_ok_iff {input : Input} {runners : List Runner} :
    (read input).outcome = .ok runners ↔ record.reader.parse input = .ok (some runners) := by
  cases h : record.reader.parse input with
  | error error => simp [read_of_error h, Attempt.fail, Attempt.ofExcept]
  | ok found =>
    cases found with
    | none => simp [read_of_none h, Attempt.fail, Attempt.ofExcept]
    | some runners => simp [read_of_some h]

theorem outcome_iff_wellShaped {delivery : Delivery} {bytes : Bytes} {runners : List Runner} :
    (read ⟨bytes, delivery, .closed⟩).outcome = .ok runners ↔ WellShaped (some runners) bytes := by
  rw [outcome_eq_ok_iff, Reader.parse_eq_ok_iff]
  exact reader_reads.readAll_eq_ok_iff

/-- Behind the front of the runners, those in front, and the front of a string in the next one. -/
theorem textBehind {outer begun front : Bytes} {runners : List Runner} {Alike : String → String → Prop}
    {Shown : String → Runner → Prop} (ho : layout.Before () outer)
    (hb : Begun RunnerText true runners begun) (h : Runner.record.reader.TextBehind front Alike Shown) :
    record.reader.TextBehind (outer ++ (openBracket :: begun ++ front)) Alike fun s found =>
      ∃ rs, some rs = found ∧ ∃ r, rs[runners.length]? = some r ∧ Shown s r := by
  have hlist := (Reader.list_textBehind Runner.reader_reads hb h).optional
  refine (ho.textBehind (Reader.optional_passesBlanks _) (fun _ _ _ => ⟨_, rfl⟩) hlist).imp ?_
  rintro s found ⟨c, hc, rs, hr, hget⟩
  cases hc
  exact ⟨rs, hget, hr⟩

theorem Before.heldAsSpelled {delivery : Delivery} {i : Nat} {field : RunnerField} {front : Bytes}
    (h : Before i field front) :
    HeldAsSpelled (fun bytes => read ⟨bytes, delivery, .closed⟩) .invalidListing front
      fun s runners => text? i field runners = some s := by
  obtain @⟨gap, outer, begun, front, runners, hne, hg, ho, hb, rfl, hf⟩ := h
  refine (textBehind ho hb (Runner.textBehind hne hf)).heldAsSpelled hg outcome_eq_ok_iff read_of_error ?_
    Option.some.inj
  rintro s _ ⟨rs, rfl, r, hr, hs⟩
  exact ⟨rs, rfl, Option.bind_eq_some_iff.mpr ⟨r, hr, hs⟩⟩

theorem stringsAsSpelled (delivery : Delivery) :
    StringsAsSpelled (fun bytes => read ⟨bytes, delivery, .closed⟩) .invalidListing
      (fun runners => WellShaped (some runners)) Before BeforeKey text? where
  whole bytes runners := outcome_iff_wellShaped
  field := Before.heldAsSpelled
  key h := by
    cases h with
    | listing hg hf => exact hf.textBehind.readAsSpelled hg outcome_eq_ok_iff read_of_error
    | runner hg ho hb hf =>
      exact (textBehind ho hb hf.textBehind).readAsSpelled hg outcome_eq_ok_iff read_of_error
  placed {bytes runners i field s} h := by
    refine ⟨?_, fun hs => ?_⟩
    · rintro ⟨rest, hb, hl⟩
      exact hb.heldAsSpelled.shows hl h
    · obtain ⟨r, hr, hs⟩ := Option.bind_eq_some_iff.mp hs
      have hne : field ≠ .busy := by
        rintro rfl
        cases hs
      obtain ⟨gap, text, after, hg, ht, -, rfl⟩ := outcome_iff_wellShaped.mp h
      rcases (listingText_iff.mp ht).exists_before () with hnone | ⟨outer, rtext, rest, ho, hlist, rfl⟩
      · cases hnone
      · have hlist : OrNull (ListText RunnerText) (some runners) rtext := hlist
        cases hlist with
        | value hlist =>
          obtain ⟨begun, text, rest', hb, hlength, hr, rfl⟩ := hlist.exists_begun hr
          obtain ⟨front, literal, rest'', hf, hl, rfl⟩ := hr.exists_literal hs
          have hspelled := Spelled.literal (rest'' ++ rest' ++ rest ++ after)
            (Before.runner hne hg ho hb hlength hf) hl
          simpa using hspelled

end Listing

/-! ### Names that are compared -/

namespace Selection

/-- The runners and the machines of a listing and a table are joined by the strings that their names are
spelled as. -/
structure JoinedAsSpelled (mode : Mode) (listing table : Bytes) (runners : List Runner) (t : Table) :
    Prop where
  /-- A runner that is wanted is joined with a machine if some string is spelled as the name of both. -/
  joined {i j : Nat} : Joined mode runners t i j ↔ (∃ r, runners[i]? = some r ∧ mode.Wants r) ∧
    ∃ s, Spelled (Listing.Before i .name) s listing ∧ Spelled (Table.Before j .name) s table
  /-- Two spellings of one name always join, and those of distinct names never do. -/
  names {i j : Nat} {s s' : String} : Spelled (Listing.Before i .name) s listing →
    Spelled (Table.Before j .name) s' table →
    (Joined mode runners t i j ↔ (∃ r, runners[i]? = some r ∧ mode.Wants r) ∧ s = s')
  /-- A selection is the join of these. -/
  selected {ids : List String} : selection mode runners t = .ok ids ↔
    (∀ r ∈ runners, Complete mode t r) ∧ IsJoin mode runners t ids

variable {mode : Mode} {listing table : Bytes} {delivery delivery' : Delivery} {runners : List Runner}
  {t : Table}

theorem joined_iff_text {i j : Nat} :
    Joined mode runners t i j ↔ (∃ r, runners[i]? = some r ∧ mode.Wants r) ∧
      ∃ s, Listing.text? i .name runners = some s ∧ Table.text? j .name t = some s := by
  refine ⟨?_, ?_⟩
  · rintro ⟨r, m, hr, hm, hw, hname⟩
    exact ⟨⟨r, hr, hw⟩, m.name, Option.bind_eq_some_iff.mpr ⟨r, hr, hname⟩,
      Option.map_eq_some_iff.mpr ⟨m, hm, rfl⟩⟩
  · rintro ⟨⟨r, hr, hw⟩, s, hs, hs'⟩
    obtain ⟨r', hr', hname⟩ := Option.bind_eq_some_iff.mp hs
    obtain ⟨m, hm, rfl⟩ := Option.map_eq_some_iff.mp hs'
    obtain rfl := Option.some.inj (hr.symm.trans hr')
    exact ⟨r, m, hr, hm, hw, hname⟩

theorem joined_iff_spelled (hl : (Listing.read ⟨listing, delivery, .closed⟩).outcome = .ok runners)
    (ht : (Table.read ⟨table, delivery', .closed⟩).outcome = .ok t) {i j : Nat} :
    Joined mode runners t i j ↔ (∃ r, runners[i]? = some r ∧ mode.Wants r) ∧
      ∃ s, Spelled (Listing.Before i .name) s listing ∧ Spelled (Table.Before j .name) s table := by
  simp only [joined_iff_text, (Listing.stringsAsSpelled delivery).placed hl,
    (Table.stringsAsSpelled delivery').placed ht]

theorem joinedAsSpelled (mode : Mode)
    (hl : (Listing.read ⟨listing, delivery, .closed⟩).outcome = .ok runners)
    (ht : (Table.read ⟨table, delivery', .closed⟩).outcome = .ok t) :
    JoinedAsSpelled mode listing table runners t where
  joined := joined_iff_spelled hl ht
  names {i j s s'} hs hs' := by
    rw [(Listing.stringsAsSpelled delivery).placed hl] at hs
    rw [(Table.stringsAsSpelled delivery').placed ht] at hs'
    rw [joined_iff_text, hs, hs']
    refine and_congr_right fun _ => ⟨?_, ?_⟩
    · rintro ⟨x, hx, hx'⟩
      exact Option.some.inj (hx.trans hx'.symm)
    · rintro rfl
      exact ⟨s, rfl, rfl⟩
  selected {ids} := by
    have hjoin := isJoin_flatMap mode runners t
    rw [selection_eq_ok_iff]
    refine and_congr_right fun _ => ⟨?_, fun h => h.unique hjoin⟩
    rintro rfl
    exact hjoin

end Selection

/-! ### All together -/

/-- **Strings are read as they are spelled.**  A string is read from exactly its literals, and a status from
those of its text.  A literal spells a string exactly if it is not broken, and a broken one is refused,
whatever follows.  So it is wherever a name, an id, a status or a key stands in a listing or a table, whether
the bytes come at once or one at a time.  Then runners and machines are joined by the strings that their
names are spelled as: two spellings of one name always join, and those of distinct names never do. -/
theorem strings_as_spelled :
    (Reader.string.Reads StringLiteral ∧ Status.reader.Reads StatusLiteral) ∧
    (∀ body, Inside body → (Broken body ↔ ∀ s, ¬ StringLiteral s (quote :: body ++ [quote]))) ∧
    (∀ literal e rest, BrokenLiteral literal →
      (∃ fault, Reader.string.read e (literal ++ rest) = .error fault) ∧
        ∃ fault, Status.reader.read e (literal ++ rest) = .error fault) ∧
    (∀ delivery,
      StringsAsSpelled (fun bytes => Listing.read ⟨bytes, delivery, .closed⟩) .invalidListing
        (fun runners => Listing.WellShaped (some runners)) Listing.Before Listing.BeforeKey Listing.text? ∧
      StringsAsSpelled (fun bytes => Table.read ⟨bytes, delivery, .closed⟩) .invalidTable
        Table.WellShaped Table.Before Table.BeforeKey Table.text?) ∧
    ∀ mode listing table delivery delivery' runners t,
      (Listing.read ⟨listing, delivery, .closed⟩).outcome = .ok runners →
      (Table.read ⟨table, delivery', .closed⟩).outcome = .ok t →
      Selection.JoinedAsSpelled mode listing table runners t := by
  refine ⟨⟨Reader.string_reads, Status.reader_reads⟩, fun body h => ?_, fun literal e rest h => ?_,
    fun delivery => ⟨Listing.stringsAsSpelled delivery, Table.stringsAsSpelled delivery⟩,
    fun mode _ _ _ _ _ _ => Selection.joinedAsSpelled mode⟩
  · rw [broken_iff h]
    exact forall_congr' fun s => not_congr stringLiteral_iff.symm
  · exact ⟨h.not_read e rest, h.not_read_status e rest⟩

/-- A listing whose runner has its name spelled as a surrogate pair, and its status with an escape. -/
def escapedFace : Bytes :=
  Text.Utf8.encode "[[[\"\\uD83d\\ude00\",\"onlin\\u0065\",null]]]"

/-- A table of two machines whose names are spelled by themselves. -/
def plainFaces : Bytes :=
  Text.Utf8.encode "[[\"😀\",\"1\"],[\"😁\",\"2\"]]"

/-- A leading surrogate alone. -/
def halfFace : Bytes :=
  Text.Utf8.encode "\"\\ud83d\""

/-- The runner is joined with the first machine, which has its name, and not with the second.  Half a pair
is no name of a machine. -/
theorem strings_as_spelled_faces :
    (∃ runners t, (Listing.read ⟨escapedFace, .stream, .closed⟩).outcome = .ok runners ∧
      (Table.read ⟨plainFaces, .text, .closed⟩).outcome = .ok t ∧
      Selection.Joined .online runners t 0 0 ∧ ¬ Selection.Joined .online runners t 0 1) ∧
    BrokenLiteral halfFace ∧ ∀ rest, ∃ error,
      Table.read ⟨[openBracket, openBracket] ++ halfFace ++ rest, .text, .closed⟩ =
        .fail (.invalidTable error) := by
  have hlisting : (Listing.read ⟨escapedFace, .stream, .closed⟩).outcome =
      .ok [⟨some "😀", some .online, none⟩] := by decide +kernel
  have htable : (Table.read ⟨plainFaces, .text, .closed⟩).outcome =
      .ok ⟨[⟨"😀", "1"⟩, ⟨"😁", "2"⟩]⟩ := by decide +kernel
  have hhalf : BrokenLiteral halfFace := by
    have hunit : HexUnit [0x64, 0x38, 0x33, 0x64] 0xd83d := codeUnit?_eq_some_iff.mp (by decide)
    have hnone : ∀ low more, TrailingEscape low → [] ≠ low ++ more := by
      rintro low more ⟨-⟩ hnil
      cases hnil
    rw [show halfFace = quote :: ([] ++ backslash :: letterU :: [0x64, 0x38, 0x33, 0x64] ++ []) ++ [quote] by
      decide +kernel]
    exact .quoted (inside_unit hunit) (.leading .nil (.unit hunit (by decide) (by decide)) hnone)
  obtain ⟨-, -, -, hread, hjoin⟩ := strings_as_spelled
  refine ⟨⟨_, _, hlisting, htable, ?_⟩, hhalf, fun rest => ?_⟩
  · have hrunner : Spelled (Listing.Before 0 .name) "😀" escapedFace :=
      ((hread .stream).1.placed hlisting).mpr rfl
    have hfirst : Spelled (Table.Before 0 .name) "😀" plainFaces :=
      ((hread .text).2.placed htable).mpr rfl
    have hsecond : Spelled (Table.Before 1 .name) "😁" plainFaces :=
      ((hread .text).2.placed htable).mpr rfl
    have hfaces := hjoin .online _ _ _ _ _ _ hlisting htable
    refine ⟨(hfaces.names hrunner hfirst).mpr ⟨⟨_, rfl, rfl⟩, rfl⟩, fun h => ?_⟩
    exact absurd ((hfaces.names hrunner hsecond).mp h).2 (by decide)
  · have hfront : Table.Before 0 .name [openBracket, openBracket] :=
      .machine blanks_nil (.next (.first blanks_nil)) rfl
        (.element (s := {}) rfl (.next (.first blanks_nil)) .nil)
    exact ((hread .text).2.field hfront).refused hhalf

end BuildFleet
