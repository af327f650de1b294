import BuildFleet.Proofs.Json.Failing
import BuildFleet.Proofs.Machine.Reading
import BuildFleet.Proofs.Run
import BuildFleet.Proofs.Runner.Listing

/-!
# Listings and runs from a stream that fails

`failing_stream_refused`: a listing is never read from a stream that delivers some bytes and then
fails, even if these bytes alone are a listing.  A run that reads its listing from such a standard
input fails, and writes nothing.
-/

namespace BuildFleet
open Json

theorem Runner.record_persists : Runner.record.Persists := by
  intro field hf
  simp only [Runner.record, List.mem_cons, List.not_mem_nil, or_false] at hf
  rcases hf with rfl | rfl | rfl
  · exact (Reader.optional_persists Reader.string_persists).map fun name (r : Runner) => { r with name }
  · have hstatus : Status.reader.Persists := Reader.string_persists.map Status.ofText
    exact (Reader.optional_persists hstatus).map fun status (r : Runner) => { r with status }
  · exact (Reader.optional_persists Reader.boolean_persists).map fun busy (r : Runner) => { r with busy }

theorem Listing.record_persists : Listing.record.Persists := by
  intro field hf
  rw [Listing.record, List.mem_singleton] at hf
  rw [hf]
  have hrunners := Reader.list_persists (Record.reader_persists Runner.record_persists)
  exact (Reader.optional_persists hrunners).map fun runners _ => runners

/-- The error is the failure of the stream, or the one that the bytes alone give. -/
theorem Listing.read_failingAfter (bytes : Bytes) (error : SystemError) :
    ∃ e, Listing.read (.failingAfter bytes error) = .fail (.invalidListing e) ∧
      (e.category = .io ∨ Listing.read (.ofBytes bytes) = .fail (.invalidListing e)) := by
  obtain ⟨e, he, hcause⟩ :=
    (Record.reader_persists Listing.record_persists).parse_failingAfter bytes error
  refine ⟨e, ?_, ?_⟩
  · rw [Listing.read, he]
  · rcases hcause with hio | hclosed
    · refine .inl ?_
      rw [Json.Error.category, hio]
      rfl
    · refine .inr ?_
      rw [Listing.read, hclosed]

/-- **A stream that fails is never a listing.**  What is found wrong is the failure, or what is found
wrong with the bytes if they end there; and a run on such a standard input ends with it, and has
written nothing. -/
theorem failing_stream_refused (bytes : Bytes) (error : SystemError) :
    ∃ e, Listing.read (.failingAfter bytes error) = .fail (.invalidListing e) ∧
      (e.category = .io ∨ Listing.read (.ofBytes bytes) = .fail (.invalidListing e)) ∧
      ∀ (files : Files) (room : Option Nat) (mode : Mode) (machines : TableSource) (table : Table),
        Run.Loads ⟨files, .failingAfter bytes error, room⟩ ⟨mode, machines, .stdin⟩ table →
        (run ⟨files, .failingAfter bytes error, room⟩ ⟨mode, machines, .stdin⟩).outcome =
            .error (.readingListing (.invalidListing e)) ∧
          (run ⟨files, .failingAfter bytes error, room⟩ ⟨mode, machines, .stdin⟩).Unwritten := by
  obtain ⟨e, he, hcause⟩ := Listing.read_failingAfter bytes error
  refine ⟨e, he, hcause, fun files room mode machines table ht => ?_⟩
  refine Run.run_of_listing_error ht ?_
  have hopened : Run.opened ⟨files, .failingAfter bytes error, room⟩ ⟨mode, machines, .stdin⟩ =
      .ok (.failingAfter bytes error) := rfl
  rw [Run.readListing_of_opened hopened, he]
  rfl

/-- The bytes `[[]]` are a listing of no runners, but a run that finds the failure behind them does not
take them for one. -/
theorem complete_listing_refused :
    Listing.WellShaped (some []) [openBracket, openBracket, closeBracket, closeBracket] ∧
      Run.Loads
        ⟨fun _ => .ok (.ofBytes [openBracket, closeBracket]),
          .failingAfter [openBracket, openBracket, closeBracket, closeBracket] (.refused .stdin), none⟩
        ⟨.online, .file "machines.json", .stdin⟩ ⟨[]⟩ ∧
      ∃ e, (run
        ⟨fun _ => .ok (.ofBytes [openBracket, closeBracket]),
          .failingAfter [openBracket, openBracket, closeBracket, closeBracket] (.refused .stdin), none⟩
        ⟨.online, .file "machines.json", .stdin⟩).outcome =
          .error (.readingListing (.invalidListing e)) := by
  have hlist : ListingText (some []) [openBracket, openBracket, closeBracket, closeBracket] :=
    .list (.some (.last blanks_nil rfl blanks_nil)) (.value (.none blanks_nil))
  have htable : Table.WellShaped ⟨[]⟩ [openBracket, closeBracket] :=
    ⟨[], _, [], blanks_nil, .none blanks_nil, blanks_nil, rfl⟩
  have hloads : Run.Loads
      ⟨fun _ => .ok (.ofBytes [openBracket, closeBracket]),
        .failingAfter [openBracket, openBracket, closeBracket, closeBracket] (.refused .stdin), none⟩
      ⟨.online, .file "machines.json", .stdin⟩ ⟨[]⟩ := by
    have hread := Table.read_of_ok (Table.wellShaped_iff.mp htable)
    show (Table.load _ _).outcome = _
    simp only [Table.load, hread]
    rfl
  obtain ⟨e, -, -, hrun⟩ := failing_stream_refused
    [openBracket, openBracket, closeBracket, closeBracket] (.refused .stdin)
  exact ⟨⟨[], _, [], blanks_nil, hlist, blanks_nil, rfl⟩, hloads, e, (hrun _ _ _ _ _ hloads).1⟩

end BuildFleet
