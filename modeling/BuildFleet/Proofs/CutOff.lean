import BuildFleet.Proofs.Json.Forward.Readers
import BuildFleet.Proofs.Machine.Reading
import BuildFleet.Proofs.Run
import BuildFleet.Proofs.Runner.Listing

/-!
# Listings and tables that are cut off or continued

`taken_as_whole`: bytes that are taken for a listing or a table are taken as a whole.  Without their
end, they are refused, and what is found wrong is that they end too early.  With more behind them than
blanks, they are refused too.  So a run that finds half a listing, or two of them in a row, fails, and
writes nothing (`Listing.run_of_spoiled`).
-/

namespace BuildFleet
open Json

/-! ### The readers -/

theorem Runner.record_forward : Runner.record.Forward := by
  intro field hf
  simp only [Runner.record, List.mem_cons, List.not_mem_nil, or_false] at hf
  rcases hf with rfl | rfl | rfl
  · exact (Reader.optional_forward Reader.string_forward).map fun name (r : Runner) => { r with name }
  · have hstatus : Status.reader.Forward := Reader.string_forward.map Status.ofText
    exact (Reader.optional_forward hstatus).map fun status (r : Runner) => { r with status }
  · exact (Reader.optional_forward Reader.boolean_forward).map fun busy (r : Runner) => { r with busy }

theorem Listing.record_forward : Listing.record.Forward := by
  intro field hf
  rw [Listing.record, List.mem_singleton] at hf
  rw [hf]
  have hrunners := Reader.list_forward (Record.reader_forward Runner.record_forward)
  exact (Reader.optional_forward hrunners).map fun runners _ => runners

theorem Machine.record_forward : Machine.record.Forward := by
  intro field hf
  simp only [Machine.record, List.mem_cons, List.not_mem_nil, or_false] at hf
  rcases hf with rfl | rfl
  · exact Reader.string_forward.map fun name (m : PartialMachine) => { m with name := some name }
  · exact Reader.string_forward.map fun id (m : PartialMachine) => { m with id := some id }

/-! ### Taken as a whole -/

/-- What is said of bytes of which the end is missing. -/
def SaysCutOff (Same : Bytes → Prop) (kept lost : Bytes) (e : Json.Error) : Prop :=
  (∃ more, e.message = "EOF while parsing" ++ more) ∨
    (∃ more, e.message = "invalid number" ++ more) ∧ CutInNumber Same kept lost

/-- Bytes that are taken are so as a whole. -/
structure TakenAsWhole {α : Type} (read : Bytes → Attempt Failure α) (invalid : Json.Error → Failure)
    (Taken : Bytes → Prop) (bytes : Bytes) : Prop where
  /-- Nothing but blanks at the end can be missing. -/
  cut : ∀ kept lost, bytes = kept ++ lost → ¬ Blanks lost → ∃ e, read kept = .fail (invalid e) ∧
    SaysCutOff (fun text => read text = read bytes) kept lost e
  /-- Nothing but blanks can follow. -/
  continued : ∀ more, Taken (bytes ++ more) ↔ Blanks more
  /-- They make no difference. -/
  same : ∀ more, Blanks more → read (bytes ++ more) = read bytes

theorem message_eq_append (e : Json.Error) : ∃ more, e.message = e.cause.text ++ more := by
  rw [Json.Error.message]
  split
  · exact ⟨"", String.append_empty.symm⟩
  · simp only [String.append_assoc]
    exact ⟨_, rfl⟩

theorem saysCutOff_of_tooShort {Same : Bytes → Prop} {kept lost : Bytes} {e : Json.Error}
    (h : TooShort Same kept lost e.cause) : SaysCutOff Same kept lost e := by
  obtain ⟨more, hmore⟩ := message_eq_append e
  generalize e.cause = cause at h hmore
  cases h with
  | ended inside =>
    have htext : (Cause.ended inside).text = "EOF while parsing" ++ (" " ++ inside.text) := by
      rw [← String.append_assoc]
      rfl
    refine .inl ⟨" " ++ inside.text ++ more, ?_⟩
    rw [hmore, htext, String.append_assoc]
  | number h => exact .inr ⟨⟨more, hmore⟩, h⟩

/-- What is taken by a reader that goes from front to back is taken as a whole. -/
theorem Json.Reader.Forward.takenAsWhole {α β : Type} {r : Reader β} {Spells : β → Bytes → Prop}
    {read : Bytes → Attempt Failure α} {invalid : Json.Error → Failure} {Taken : Bytes → Prop}
    (hf : r.Forward) (hs : r.Reads Spells)
    (htaken : ∀ bytes, Taken bytes ↔ ∃ v, r.parse (.ofBytes bytes) = .ok v)
    (hread : ∀ {bytes bytes'}, r.parse (.ofBytes bytes) = r.parse (.ofBytes bytes') →
      read bytes = read bytes')
    (herror : ∀ {bytes e}, r.parse (.ofBytes bytes) = .error e → read bytes = .fail (invalid e))
    {bytes : Bytes} (h : Taken bytes) : TakenAsWhole read invalid Taken bytes := by
  obtain ⟨v, hv⟩ := (htaken bytes).mp h
  have hmore : ∀ more, Blanks more → r.parse (.ofBytes (bytes ++ more)) = .ok v := by
    intro more hm
    obtain ⟨before, text, after, hb, ht, ha, rfl⟩ := hs.parse_ofBytes_eq_ok_iff.mp hv
    exact hs.parse_ofBytes_eq_ok_iff.mpr ⟨before, text, after ++ more, hb, ht, ha.append hm, by simp⟩
  refine ⟨?_, fun more => ⟨fun ht => ?_, fun hm => (htaken _).mpr ⟨v, hmore more hm⟩⟩,
    fun more hm => hread ((hmore more hm).trans hv.symm)⟩
  · rintro kept lost rfl hl
    obtain ⟨e, he, hshort⟩ := hf.parse_cut hv hl
    refine ⟨e, herror he, saysCutOff_of_tooShort ?_⟩
    exact hshort.append [] fun text _ ht => hread (ht.trans hv.symm)
  · -- the bytes are the whole, cut off before `more`
    by_contra hm
    obtain ⟨w, hw⟩ := (htaken _).mp ht
    obtain ⟨e, he, -⟩ := hf.parse_cut hw hm
    rw [hv] at he
    cases he

/-! ### Listings and tables -/

/-- The bytes are taken for a listing, with runners or without. -/
def Listing.Taken (bytes : Bytes) : Prop :=
  (∃ runners, (Listing.read (.ofBytes bytes)).outcome = .ok runners) ∨
    (Listing.read (.ofBytes bytes)).outcome = .error .missingRunners

theorem Listing.taken_iff {bytes : Bytes} :
    Listing.Taken bytes ↔ ∃ runners, Listing.record.reader.parse (.ofBytes bytes) = .ok runners := by
  rw [Taken]
  cases h : Listing.record.reader.parse (.ofBytes bytes) with
  | error e =>
    rw [read_of_error h]
    refine iff_of_false ?_ (fun ⟨_, h⟩ => by cases h)
    rintro (⟨runners, h⟩ | h) <;> cases h
  | ok runners =>
    refine iff_of_true ?_ ⟨runners, rfl⟩
    cases runners with
    | none =>
      rw [read_of_none h]
      exact .inr rfl
    | some runners =>
      rw [read_of_some h]
      exact .inl ⟨runners, rfl⟩

/-- The bytes are taken for a table. -/
def Table.Taken (bytes : Bytes) : Prop :=
  ∃ t, (Table.read (.ofBytes bytes)).outcome = .ok t

theorem Table.taken_iff {bytes : Bytes} : Table.Taken bytes ↔
    ∃ machines, Machine.record.reader.list.parse (.ofBytes bytes) = .ok machines := by
  rw [Taken]
  cases h : Machine.record.reader.list.parse (.ofBytes bytes) with
  | error e =>
    rw [read_of_error h]
    exact iff_of_false (fun ⟨_, h⟩ => by cases h) (fun ⟨_, h⟩ => by cases h)
  | ok machines =>
    rw [read_of_ok h]
    exact iff_of_true ⟨⟨machines⟩, rfl⟩ ⟨machines, rfl⟩

/-- What is taken for a listing is so as a whole. -/
theorem Listing.takenAsWhole {bytes : Bytes} (h : Taken bytes) :
    TakenAsWhole (fun bytes => read (.ofBytes bytes)) .invalidListing Taken bytes := by
  refine (Record.reader_forward record_forward).takenAsWhole reader_reads (fun _ => taken_iff)
    (fun h => ?_) read_of_error h
  simp only [read, h]

/-- What is taken for a table is so as a whole. -/
theorem Table.takenAsWhole {bytes : Bytes} (h : Taken bytes) :
    TakenAsWhole (fun bytes => read (.ofBytes bytes)) .invalidTable Taken bytes := by
  refine (Reader.list_forward (Record.reader_forward Machine.record_forward)).takenAsWhole reader_reads
    (fun _ => taken_iff) (fun h => ?_) read_of_error h
  simp only [read, h]

/-! ### A cut inside a number -/

/-- A listing with a member nobody asks for, which is a negative number. -/
theorem Listing.taken_of_number :
    Taken [openBrace, quote, quote, colon, minusSign, zeroDigit, closeBrace] := by
  have hnumber : Value [minusSign, zeroDigit] := .negative (.parts .zero .none .none)
  have hkey : StringLiteral "" [quote, quote] := .quoted (s := "") .nil
  have hmember : Member ("", [minusSign, zeroDigit]) [quote, quote, colon, minusSign, zeroDigit] :=
    .colon hkey blanks_nil blanks_nil
  have htext : ListingText none [openBrace, quote, quote, colon, minusSign, zeroDigit, closeBrace] := by
    refine .object (.some (.last blanks_nil hmember blanks_nil)) ?_ (.absent ?_)
    · intro m hm _
      obtain rfl := List.mem_singleton.mp hm
      exact hnumber
    · intro m hm
      obtain rfl := List.mem_singleton.mp hm
      decide
  exact taken_iff.mpr ⟨none, wellShaped_iff.mp ⟨[], _, [], blanks_nil, htext, blanks_nil, rfl⟩⟩

/-- Of the number only the minus is left. -/
theorem Listing.read_of_minus : read (.ofBytes [openBrace, quote, quote, colon, minusSign]) =
    .fail (.invalidListing ⟨.invalidNumber, some ⟨1, 5⟩⟩) := by
  have hkey : readText .closed [quote, colon, minusSign] = .ok ("", [colon, minusSign]) :=
    readText_eq_ok_iff.mpr ⟨[], .nil, rfl⟩
  have hskip : Record.skipField .closed [colon, minusSign] = .error ⟨.invalidNumber, .consumed 0⟩ := by
    show skipFrames .closed .value [] [minusSign] = _
    rw [skipFrames_value]
    rfl
  have hmember : record.readMember .closed [] none [quote, colon, minusSign] =
      .error ⟨.invalidNumber, .consumed 0⟩ := by
    rw [Record.readMember, hkey]
    show Record.skipField .closed [colon, minusSign] >>= _ = _
    rw [hskip]
    rfl
  have hread : record.reader.readAll .closed [openBrace, quote, quote, colon, minusSign] =
      .error ⟨.invalidNumber, .consumed 0⟩ := by
    show (record.readMembers .closed true [] none [quote, quote, colon, minusSign] >>= _) >>= _ = _
    rw [Record.readMembers_eq]
    show ((record.readMember .closed [] none [quote, colon, minusSign] >>= _) >>= _) >>= _ = _
    rw [hmember]
    rfl
  have hparse : record.reader.parse (.ofBytes [openBrace, quote, quote, colon, minusSign]) =
      .error ⟨.invalidNumber, some ⟨1, 5⟩⟩ := by
    rw [Reader.parse_of_error hread]
    rfl
  exact read_of_error hparse

/-! ### Runs -/

/-- A listing without its end, or with more behind it than blanks. -/
inductive Listing.Spoiled (listing : Bytes) : Bytes → Prop where
  | cut {kept lost : Bytes} : listing = kept ++ lost → ¬ Blanks lost → Spoiled listing kept
  | continued {more : Bytes} : ¬ Blanks more → Spoiled listing (listing ++ more)

theorem Listing.not_taken_of_spoiled {listing bytes : Bytes} (h : Taken listing)
    (hs : Spoiled listing bytes) : ¬ Taken bytes := by
  intro ht
  cases hs with
  | cut hl hb =>
    -- what is kept, taken as a whole, could be followed by blanks only
    subst hl
    exact hb (((takenAsWhole ht).continued _).mp h)
  | continued hm => exact hm (((takenAsWhole h).continued _).mp ht)

theorem Listing.run_of_spoiled {listing bytes : Bytes} {around : Surroundings} {settings : Settings}
    (h : Taken listing) (hs : Spoiled listing bytes)
    (ho : Run.opened around settings = .ok (.ofBytes bytes)) :
    (∃ failure, (run around settings).outcome = .error failure) ∧ (run around settings).Unwritten := by
  refine Run.run_of_not_reads ?_
  rintro ⟨runners, input, hinput, hread⟩
  obtain rfl := Except.ok.inj (ho.symm.trans hinput)
  exact not_taken_of_spoiled h hs (.inl ⟨runners, hread⟩)

/-- **A listing or a table is taken as a whole.**  Without its end it is refused, as bytes that end too
early, or, with a cut inside a number nobody asks for, as a number that is wrong, which does happen.
With more behind it than blanks it is refused as well.  A run that finds such a listing fails, and has
written nothing. -/
theorem taken_as_whole :
    (∀ bytes, Listing.Taken bytes →
      TakenAsWhole (fun bytes => Listing.read (.ofBytes bytes)) .invalidListing Listing.Taken bytes) ∧
    (∀ bytes, Table.Taken bytes →
      TakenAsWhole (fun bytes => Table.read (.ofBytes bytes)) .invalidTable Table.Taken bytes) ∧
    (∃ kept lost e more, Listing.Taken (kept ++ lost) ∧
      Listing.read (.ofBytes kept) = .fail (.invalidListing e) ∧
        e.message = "invalid number" ++ more) ∧
    ∀ listing bytes around settings, Listing.Taken listing → Listing.Spoiled listing bytes →
      Run.opened around settings = .ok (.ofBytes bytes) →
        (∃ failure, (run around settings).outcome = .error failure) ∧
          (run around settings).Unwritten := by
  refine ⟨fun _ => Listing.takenAsWhole, fun _ => Table.takenAsWhole, ?_,
    fun _ _ _ _ => Listing.run_of_spoiled⟩
  obtain ⟨more, hmore⟩ := message_eq_append ⟨.invalidNumber, some ⟨1, 5⟩⟩
  exact ⟨[openBrace, quote, quote, colon, minusSign], [zeroDigit, closeBrace], _, more,
    Listing.taken_of_number, Listing.read_of_minus, hmore⟩

/-- The bytes `[]` are a table, but neither without their last byte nor twice in a row.  The bytes
`[[]]` are a listing, but a run that finds them twice in a row fails. -/
theorem empty_table_taken_as_whole :
    (Table.Taken [openBracket, closeBracket] ∧ ¬ Blanks [closeBracket] ∧
      (∃ e, Table.read (.ofBytes [openBracket]) = .fail (.invalidTable e)) ∧
      ¬ Table.Taken [openBracket, closeBracket, openBracket, closeBracket]) ∧
    Listing.Taken [openBracket, openBracket, closeBracket, closeBracket] ∧
      ∃ failure, (run
        ⟨fun _ => .ok (.ofBytes [openBracket, closeBracket]),
          .ofBytes ([openBracket, openBracket, closeBracket, closeBracket] ++
            [openBracket, openBracket, closeBracket, closeBracket]), none⟩
        ⟨.online, .file "machines.json", .stdin⟩).outcome = .error failure := by
  have hblanks : ∀ rest, ¬ Blanks (rest ++ [closeBracket]) := fun rest h =>
    absurd (h closeBracket (List.mem_append_right _ (List.mem_singleton_self _))) (by decide)
  refine ⟨?_, ?_⟩
  · have htable : Table.WellShaped ⟨[]⟩ [openBracket, closeBracket] :=
      ⟨[], _, [], blanks_nil, .none blanks_nil, blanks_nil, rfl⟩
    have htaken : Table.Taken [openBracket, closeBracket] :=
      Table.taken_iff.mpr ⟨[], Table.wellShaped_iff.mp htable⟩
    have hwhole := taken_as_whole.2.1 _ htaken
    obtain ⟨e, he, -⟩ := hwhole.cut [openBracket] [closeBracket] rfl (hblanks [])
    exact ⟨htaken, hblanks [], ⟨e, he⟩,
      fun h => hblanks [openBracket] ((hwhole.continued [openBracket, closeBracket]).mp h)⟩
  · have hlist : ListingText (some []) [openBracket, openBracket, closeBracket, closeBracket] :=
      .list (.some (.last blanks_nil rfl blanks_nil)) (.value (.none blanks_nil))
    have htaken : Listing.Taken [openBracket, openBracket, closeBracket, closeBracket] :=
      Listing.taken_iff.mpr
        ⟨some [], Listing.wellShaped_iff.mp ⟨[], _, [], blanks_nil, hlist, blanks_nil, rfl⟩⟩
    have hspoiled : Listing.Spoiled [openBracket, openBracket, closeBracket, closeBracket]
        ([openBracket, openBracket, closeBracket, closeBracket] ++
          [openBracket, openBracket, closeBracket, closeBracket]) :=
      .continued (hblanks [openBracket, openBracket, closeBracket])
    exact ⟨htaken, (taken_as_whole.2.2.2 _ _ _ _ htaken hspoiled rfl).1⟩

end BuildFleet
