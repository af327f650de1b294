import BuildFleet.Proofs.Json.Records
import BuildFleet.Runner.Listing

/-!
# Runners — the listings that are read

What a listing looks like, and that it is read if it does.

* `RunnerText`: the texts of a runner, an object or a list of three.
* `Listing.WellShaped`: the texts of a listing, with the runners that it holds, or with none.
* `Listing.read_iff_wellShaped`: of all bytes, those are read that are well shaped and hold runners, and the
  result is what they hold; those that are well shaped and hold none are found to lack them; and
  all others are no listing.
-/

namespace BuildFleet
open Json

/-! ### The grammar -/

/-- The spellings of a status. -/
inductive StatusLiteral : Status → Bytes → Prop where
  | online {text : Bytes} : StringLiteral "online" text → StatusLiteral .online text
  | offline {text : Bytes} : StringLiteral "offline" text → StatusLiteral .offline text
  | other {s : String} {text : Bytes} : s ≠ "online" → s ≠ "offline" → StringLiteral s text →
      StatusLiteral (.other s) text

/-- The texts of a runner. -/
inductive RunnerText (r : Runner) : Bytes → Prop where
  /-- Members in any order; each of the three may be absent or null, and none comes twice. -/
  | object {members : List (String × Bytes)} {text : Bytes} : ObjectText members text →
      Others (fun key => ∃ field : RunnerField, field.key = key) members →
      FieldText "name" (OrNull StringLiteral) none members r.name →
      FieldText "status" (OrNull StatusLiteral) none members r.status →
      FieldText "busy" (OrNull BooleanLiteral) none members r.busy → RunnerText r text
  /-- Exactly the three, in this order. -/
  | list {name status busy text : Bytes} : ListText (· = ·) [name, status, busy] text →
      OrNull StringLiteral r.name name → OrNull StatusLiteral r.status status →
      OrNull BooleanLiteral r.busy busy → RunnerText r text

/-- The texts of a listing, without the blanks around it. -/
inductive ListingText (runners : Option (List Runner)) : Bytes → Prop where
  | object {members : List (String × Bytes)} {text : Bytes} : ObjectText members text →
      Others (· = "runners") members →
      FieldText "runners" (OrNull (ListText RunnerText)) none members runners →
      ListingText runners text
  | list {entry text : Bytes} : ListText (· = ·) [entry] text →
      OrNull (ListText RunnerText) runners entry → ListingText runners text

/-- Bytes that are a listing, with blanks around it. -/
def Listing.WellShaped (runners : Option (List Runner)) (bytes : Bytes) : Prop :=
  ∃ before text after, Blanks before ∧ ListingText runners text ∧ Blanks after ∧
    bytes = before ++ text ++ after

/-! ### Statuses -/

theorem statusLiteral_iff {status : Status} {text : Bytes} :
    StatusLiteral status text ↔ ∃ s, StringLiteral s text ∧ Status.ofText s = status := by
  refine ⟨fun h => ?_, ?_⟩
  · cases h with
    | online hs => exact ⟨"online", hs, rfl⟩
    | offline hs => exact ⟨"offline", hs, rfl⟩
    | @other s _ hon hoff hs => exact ⟨s, hs, by rw [Status.ofText, if_neg hon, if_neg hoff]⟩
  · rintro ⟨s, hs, rfl⟩
    by_cases hon : s = "online"
    · subst hon
      exact .online hs
    · by_cases hoff : s = "offline"
      · subst hoff
        exact .offline hs
      · rw [Status.ofText, if_neg hon, if_neg hoff]
        exact .other hon hoff hs

theorem Status.reader_reads : Status.reader.Reads StatusLiteral := by
  refine (Reader.string_reads.map Status.ofText).congr fun status text => ?_
  exact statusLiteral_iff.symm

theorem not_stringLiteral_letterN (s : String) (more : Bytes) :
    ¬ StringLiteral s (letterN :: more) := by
  intro h
  generalize hw : letterN :: more = whole at h
  cases h
  cases hw

/-! ### Runners -/

/-- The values of a field of a runner. -/
def RunnerField.Part : RunnerField → Type
  | .name => Option String
  | .status => Option Status
  | .busy => Option Bool

/-- How the fields of a runner are spelled. -/
def Runner.layout : Layout Runner.record where
  Index := RunnerField
  order := [.name, .status, .busy]
  key := RunnerField.key
  Part := RunnerField.Part
  Spells
    | .name => OrNull StringLiteral
    | .status => OrNull StatusLiteral
    | .busy => OrNull BooleanLiteral
  get
    | .name => Runner.name
    | .status => Runner.status
    | .busy => Runner.busy
  set
    | .name => fun name r => { r with name }
    | .status => fun status r => { r with status }
    | .busy => fun busy r => { r with busy }
  reader
    | .name => Reader.string.optional
    | .status => Status.reader.optional
    | .busy => Reader.boolean.optional
  reads i := by
    cases i with
    | name => exact Reader.optional_reads Reader.string_reads not_stringLiteral_letterN
    | status =>
      refine Reader.optional_reads Status.reader_reads fun status more h => ?_
      rcases statusLiteral_iff.mp h with ⟨s, hs, -⟩
      exact not_stringLiteral_letterN s more hs
    | busy =>
      refine Reader.optional_reads Reader.boolean_reads fun b more h => ?_
      generalize hw : letterN :: more = whole at h
      cases h <;> cases hw
  fields_eq := rfl
  mem_order i := by cases i <;> decide
  nodup_order := by decide
  key_injective {i j} h := by
    cases i <;> cases j <;> first | rfl | exact absurd h (by decide)
  get_set {i v s} := by cases i <;> rfl
  get_set_of_ne {i j v s} h := by
    cases i <;> cases j <;> first | rfl | exact absurd rfl h
  ext {s s'} h := by
    cases s
    cases s'
    have hn := h .name
    have hs := h .status
    have hb := h .busy
    dsimp only at hn hs hb
    rw [hn, hs, hb]

theorem runnerText_iff {r : Runner} {text : Bytes} :
    RunnerText r text ↔ Runner.layout.Filled r text := by
  refine ⟨fun h => ?_, fun h => ?_⟩
  · cases h with
    | object ho hothers hname hstatus hbusy =>
      refine .object ho hothers fun i => ?_
      cases i with
      | name => exact hname
      | status => exact hstatus
      | busy => exact hbusy
    | list hl hname hstatus hbusy =>
      exact .list hl (.cons hname (.cons hstatus (.cons hbusy .nil)))
  · cases h with
    | object ho hothers hfields =>
      exact .object ho hothers (hfields .name) (hfields .status) (hfields .busy)
    | list hl hall =>
      cases hall with
      | cons hname hall =>
        cases hall with
        | cons hstatus hall =>
          cases hall with
          | cons hbusy hall =>
            cases hall
            exact .list hl hname hstatus hbusy

theorem Runner.reader_reads : Runner.record.reader.Reads RunnerText := by
  refine Runner.layout.record_reads.congr fun r text => ?_
  rw [runnerText_iff]
  refine ⟨?_, fun h => ⟨r, h, rfl⟩⟩
  rintro ⟨s, hf, hs⟩
  cases hs
  exact hf

/-! ### Listings -/

namespace Listing

/-- How the field of a listing is spelled. -/
def layout : Layout Listing.record where
  Index := Unit
  order := [()]
  key _ := "runners"
  Part _ := Option (List Runner)
  Spells _ := OrNull (ListText RunnerText)
  get _ := id
  set _ := fun runners _ => runners
  reader _ := Runner.record.reader.list.optional
  reads _ := by
    refine Reader.optional_reads (Reader.list_reads Runner.reader_reads) fun runners more h => ?_
    rcases enclosed_iff.mp h with ⟨inside, -, hw⟩
    cases hw
  fields_eq := rfl
  mem_order _ := List.mem_singleton_self _
  nodup_order := by decide
  key_injective _ := rfl
  get_set := rfl
  get_set_of_ne h := absurd rfl h
  ext h := h ()

theorem listingText_iff {runners : Option (List Runner)} {text : Bytes} :
    ListingText runners text ↔ layout.Filled runners text := by
  have hothers : ∀ members, Others (· = "runners") members ↔ Others layout.Known members := by
    intro members
    have hk : ∀ key, layout.Known key ↔ key = "runners" :=
      fun key => ⟨fun ⟨_, h⟩ => h.symm, fun h => ⟨(), h.symm⟩⟩
    simp only [Others, hk]
  refine ⟨fun h => ?_, fun h => ?_⟩
  · cases h with
    | object ho hm hf => exact .object ho ((hothers _).mp hm) fun _ => hf
    | list hl he => exact .list hl (.cons he .nil)
  · cases h with
    | object ho hm hf => exact .object ho ((hothers _).mpr hm) (hf ())
    | list hl hall =>
      cases hall with
      | cons he hall =>
        cases hall
        exact .list hl he

theorem reader_reads : Listing.record.reader.Reads ListingText := by
  refine layout.record_reads.congr fun runners text => ?_
  rw [listingText_iff]
  refine ⟨?_, fun h => ⟨runners, h, rfl⟩⟩
  rintro ⟨s, hf, hs⟩
  cases hs
  exact hf

theorem wellShaped_iff {runners : Option (List Runner)} {bytes : Bytes} :
    WellShaped runners bytes ↔ record.reader.parse (.ofBytes bytes) = .ok runners :=
  reader_reads.parse_ofBytes_eq_ok_iff.symm

theorem read_of_some {input : Input} {runners : List Runner}
    (h : record.reader.parse input = .ok (some runners)) :
    read input = ⟨[.listingParsed runners.length], "", .ok runners⟩ := by
  rw [read, h]
  rfl

theorem read_of_none {input : Input} (h : record.reader.parse input = .ok none) :
    read input = .fail .missingRunners := by
  rw [read, h]

theorem read_of_error {input : Input} {error : Json.Error}
    (h : record.reader.parse input = .error error) : read input = .fail (.invalidListing error) := by
  rw [read, h]

/-- Bytes are a listing with runners, or one without, or no listing, and are read as what they
are. -/
theorem read_iff_wellShaped (bytes : Bytes) :
    (∀ runners, read (.ofBytes bytes) = ⟨[.listingParsed runners.length], "", .ok runners⟩ ↔
      WellShaped (some runners) bytes) ∧
    (read (.ofBytes bytes) = .fail .missingRunners ↔ WellShaped none bytes) ∧
    ((∃ error, read (.ofBytes bytes) = .fail (.invalidListing error)) ↔
      ∀ runners, ¬ WellShaped runners bytes) := by
  simp only [wellShaped_iff]
  rcases h : record.reader.parse (.ofBytes bytes) with error | runners
  · rw [read_of_error h]
    refine ⟨fun runners => ?_, ?_, ?_⟩
    · exact iff_of_false (fun hr => by cases hr) (fun hr => by cases hr)
    · exact iff_of_false (fun hr => by cases hr) (fun hr => by cases hr)
    · exact iff_of_true ⟨error, rfl⟩ (fun runners hr => by cases hr)
  · rcases runners with _ | runners
    · rw [read_of_none h]
      refine ⟨fun runners => ?_, ?_, ?_⟩
      · exact iff_of_false (fun hr => by cases hr) (fun hr => by cases hr)
      · exact iff_of_true rfl rfl
      · refine iff_of_false ?_ fun hr => hr none rfl
        rintro ⟨error, hr⟩
        cases hr
    · rw [read_of_some h]
      refine ⟨fun runners' => ⟨fun hr => ?_, fun hr => ?_⟩, ?_, ?_⟩
      · have hr' := congrArg Attempt.outcome hr
        cases hr'
        rfl
      · cases hr
        rfl
      · exact iff_of_false (fun hr => by cases hr) (fun hr => by cases hr)
      · refine iff_of_false ?_ fun hr => hr (some runners) rfl
        rintro ⟨error, hr⟩
        cases hr

end Listing

end BuildFleet
