import BuildFleet.Machine.Reading
import BuildFleet.Proofs.Json.Delivery
import BuildFleet.Runner.Listing

/-!
# Listings and tables as a text and as a stream

A text in memory is read by its indices, and a stream byte by byte with one held back.

* `Listing.read_agree`, `Table.read_agree`: to what is read and to what is found wrong it makes no
  difference which of the two a listing or a table is; only the place of a fault may differ, and that by
  one byte.
* `text_and_stream_agree`: both.
-/

namespace BuildFleet
open Json Text.Utf8

/-- A text in memory and a stream of these bytes are read alike, where `invalid` is the failure to
parse them. -/
inductive Agree (invalid : Json.Error → Failure) (bytes : Bytes) {α : Type} :
    Attempt Failure α → Attempt Failure α → Prop where
  /-- The same value, with the same events. -/
  | read {x : Attempt Failure α} {v : α} : x.outcome = .ok v → Agree invalid bytes x x
  /-- The same failure, which is none to parse. -/
  | unfit {failure : Failure} : (∀ error, failure ≠ invalid error) →
      Agree invalid bytes (.fail failure) (.fail failure)
  /-- A failure to parse from the same cause. -/
  | invalid {cause : Cause} {text stream : Place} : Place.Near bytes text stream →
      Agree invalid bytes (.fail (invalid ⟨cause, some text⟩)) (.fail (invalid ⟨cause, some stream⟩))

theorem Runner.record_keeps : Runner.record.Keeps := by
  intro field hf
  simp only [Runner.record, List.mem_cons, List.not_mem_nil, or_false] at hf
  rcases hf with rfl | rfl | rfl
  · exact (Reader.optional_keeps Reader.string_keeps).map fun name (r : Runner) => { r with name }
  · have hstatus : Status.reader.Keeps := Reader.string_keeps.map Status.ofText
    exact (Reader.optional_keeps hstatus).map fun status (r : Runner) => { r with status }
  · exact (Reader.optional_keeps Reader.boolean_keeps).map fun busy (r : Runner) => { r with busy }

theorem Listing.record_keeps : Listing.record.Keeps := by
  intro field hf
  rw [Listing.record, List.mem_singleton] at hf
  rw [hf]
  have hrunners := Reader.list_keeps (Record.reader_keeps Runner.record_keeps)
  exact (Reader.optional_keeps hrunners).map fun runners _ => runners

theorem Machine.record_keeps : Machine.record.Keeps := by
  intro field hf
  simp only [Machine.record, List.mem_cons, List.not_mem_nil, or_false] at hf
  rcases hf with rfl | rfl
  · exact Reader.string_keeps.map fun name (m : PartialMachine) => { m with name := some name }
  · exact Reader.string_keeps.map fun id (m : PartialMachine) => { m with id := some id }

theorem Listing.read_agree (s : String) :
    Agree .invalidListing (encode s) (Listing.read (.ofString s)) (Listing.read (.ofBytes (encode s))) := by
  rcases (Record.reader_keeps Listing.record_keeps).parse_agree s with
    ⟨runners, ht, hs⟩ | ⟨cause, text, stream, ht, hs, hnear⟩
  · rw [Listing.read, Listing.read, ht, hs]
    cases runners with
    | none => exact .unfit fun error h => by cases h
    | some runners => exact .read rfl
  · rw [Listing.read, Listing.read, ht, hs]
    exact .invalid hnear

theorem Table.read_agree (s : String) :
    Agree .invalidTable (encode s) (Table.read (.ofString s)) (Table.read (.ofBytes (encode s))) := by
  rcases (Reader.list_keeps (Record.reader_keeps Machine.record_keeps)).parse_agree s with
    ⟨machines, ht, hs⟩ | ⟨cause, text, stream, ht, hs, hnear⟩
  · rw [Table.read, Table.read, ht, hs]
    exact .read rfl
  · rw [Table.read, Table.read, ht, hs]
    exact .invalid hnear

/-- Listings and tables are read alike as texts in memory and as streams. -/
theorem text_and_stream_agree (s : String) :
    Agree .invalidListing (encode s) (Listing.read (.ofString s))
        (Listing.read (.ofBytes (encode s))) ∧
      Agree .invalidTable (encode s) (Table.read (.ofString s))
        (Table.read (.ofBytes (encode s))) :=
  ⟨Listing.read_agree s, Table.read_agree s⟩

end BuildFleet
