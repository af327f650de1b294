import BuildFleet.Proofs.Delivery
import BuildFleet.Proofs.Json.Prompt.Readers
import BuildFleet.Proofs.Machine.Loading
import BuildFleet.Proofs.Runner.Listing

/-!
# The first fault of a listing or a table

What is found wrong with a text is found from its front.  An error counts some bytes of the text, and there
is nothing behind them that it depends on, but for the next byte (`first_fault`).  A field that is missing
or stands there twice is no exception.  So it makes no difference how far the text goes on behind the
fault, or whether there is another one.

* `Json.Error.Counts`: the number of bytes that an error counts, of which there is only one.
* `Json.Reader.Prompt.foundAtOnce`: what a reader finds wrong at once is what is said to be wrong.
-/

namespace BuildFleet
open Json Text.Utf8

/-! ### The readers -/

theorem Runner.record_prompt : Runner.record.Prompt := by
  intro field hf
  simp only [Runner.record, List.mem_cons, List.not_mem_nil, or_false] at hf
  rcases hf with rfl | rfl | rfl
  · exact (Reader.optional_prompt Reader.string_prompt).map fun name (r : Runner) => { r with name }
  · have hstatus : Status.reader.Prompt := Reader.string_prompt.map Status.ofText
    exact (Reader.optional_prompt hstatus).map fun status (r : Runner) => { r with status }
  · exact (Reader.optional_prompt Reader.boolean_prompt).map fun busy (r : Runner) => { r with busy }

theorem Listing.record_prompt : Listing.record.Prompt := by
  intro field hf
  rw [Listing.record, List.mem_singleton] at hf
  rw [hf]
  have hrunners := Reader.list_prompt (Record.reader_prompt Runner.record_prompt)
  exact (Reader.optional_prompt hrunners).map fun runners _ => runners

theorem Machine.record_prompt : Machine.record.Prompt := by
  intro field hf
  simp only [Machine.record, List.mem_cons, List.not_mem_nil, or_false] at hf
  rcases hf with rfl | rfl
  · exact Reader.string_prompt.map fun name (m : PartialMachine) => { m with name := some name }
  · exact Reader.string_prompt.map fun id (m : PartialMachine) => { m with id := some id }

/-! ### Found at once -/

/-- The place of the error is that behind the first `k` of the bytes. -/
def Json.Error.Counts (error : Json.Error) (bytes : Bytes) (k : Nat) : Prop :=
  k ≤ bytes.length ∧ error.place? = some (Place.after (bytes.take k))

instance (error : Json.Error) (bytes : Bytes) (k : Nat) : Decidable (error.Counts bytes k) :=
  inferInstanceAs (Decidable (_ ∧ _))

theorem Json.Error.Counts.unique {error : Json.Error} {bytes : Bytes} {j k : Nat}
    (hj : error.Counts bytes j) (hk : error.Counts bytes k) : j = k :=
  Place.eq_of_after_take hj.1 hk.1 (Option.some.inj (hj.2.symm.trans hk.2))

/-- This error of a text is found before the bytes behind it are looked at. -/
structure FoundAtOnce {α : Type} (read : String → Attempt Failure α) (invalid : Json.Error → Failure)
    (s : String) (error : Json.Error) : Prop where
  /-- It counts a number of bytes of the text. -/
  counted : ∃! k, error.Counts (encode s) k
  /-- If these are not all, it is the error of any text with the same bytes and the same one behind them. -/
  decided : ∀ k, error.Counts (encode s) k → k < (encode s).length →
    ∀ t, (encode t).take (k + 1) = (encode s).take (k + 1) → read t = .fail (invalid error)

/-- Texts that agree in more than `k` bytes have the same byte behind `k` bytes that are the same. -/
theorem exists_of_take_eq {bytes bytes' : Bytes} {k : Nat} (hk : k < bytes.length)
    (h : bytes'.take (k + 1) = bytes.take (k + 1)) :
    ∃ b rest rest', bytes = bytes.take k ++ b :: rest ∧ bytes' = bytes.take k ++ b :: rest' := by
  have hbyte : bytes.take (k + 1) = bytes.take k ++ [bytes[k]] := by
    rw [List.take_add_one, List.getElem?_eq_getElem hk]
    rfl
  refine ⟨bytes[k], bytes.drop (k + 1), bytes'.drop (k + 1), ?_, ?_⟩
  · rw [← List.drop_eq_getElem_cons hk, List.take_append_drop]
  · rw [List.append_cons, ← hbyte, ← h, List.take_append_drop]

/-- What a reader finds wrong at once is what is said to be wrong. -/
theorem Json.Reader.Prompt.foundAtOnce {α β : Type} {r : Reader β} {read : String → Attempt Failure α}
    {invalid : Json.Error → Failure} {s : String} {error : Json.Error} (hr : r.Prompt) (hkeeps : r.Keeps)
    (hread : ∀ {s e}, r.parse (.ofString s) = .error e → read s = .fail (invalid e))
    (h : r.parse (.ofString s) = .error error) : FoundAtOnce read invalid s error where
  counted := by
    obtain ⟨k, hk, hplace⟩ := hkeeps.exists_place h
    exact ⟨k, ⟨hk, hplace⟩, fun j hj => hj.unique ⟨hk, hplace⟩⟩
  decided := by
    intro k hcounts hk t ht
    obtain ⟨b, rest, rest', hs, ht'⟩ := exists_of_take_eq hk ht
    exact hread (hr.parse_eq hkeeps hs ht' h hcounts.2)

theorem Listing.read_outcome_of_parse {input : Input} {e : Json.Error} :
    (Listing.read input).outcome = .error (.invalidListing e) ↔ record.reader.parse input = .error e := by
  cases h : record.reader.parse input with
  | error error => simp [read_of_error h, Attempt.fail, Attempt.ofExcept]
  | ok runners =>
    cases runners with
    | none => simp [read_of_none h, Attempt.fail, Attempt.ofExcept]
    | some runners => simp [read_of_some h]

/-- **The first fault decides.**  An error of a listing or a table in memory counts some bytes of the text.
If there are more, then any text with the same bytes in front, and the same byte behind them, has the same
error, from the same cause and in the same place. -/
theorem first_fault (s : String) (error : Json.Error) :
    ((Listing.read (.ofString s)).outcome = .error (.invalidListing error) →
      FoundAtOnce (fun s => Listing.read (.ofString s)) .invalidListing s error) ∧
    ((Table.read (.ofString s)).outcome = .error (.invalidTable error) →
      FoundAtOnce (fun s => Table.read (.ofString s)) .invalidTable s error) := by
  refine ⟨fun h => ?_, fun h => ?_⟩
  · exact (Record.reader_prompt Listing.record_prompt).foundAtOnce
      (Record.reader_keeps Listing.record_keeps) Listing.read_of_error
      (Listing.read_outcome_of_parse.mp h)
  · exact (Reader.list_prompt (Record.reader_prompt Machine.record_prompt)).foundAtOnce
      (Reader.list_keeps (Record.reader_keeps Machine.record_keeps)) Table.read_of_error
      (Table.read_outcome_of_parse.mp h)

/-- A second member of a key is refused at its colon, and an id that is `null` at the byte behind it. -/
theorem first_fault_at_duplicate :
    (∀ t, (encode t).take 24 = encode "\x7b\"runners\":[],\"runners\":" →
      Listing.read (.ofString t) =
        .fail (.invalidListing ⟨.duplicateField "runners", some ⟨1, 23⟩⟩)) ∧
    ∀ t, (encode t).take 11 = encode "[[\"a\",null]" →
      Table.read (.ofString t) =
        .fail (.invalidTable ⟨.invalidType .null .string, some ⟨1, 10⟩⟩) := by
  have hlisting : (Listing.read (.ofString "\x7b\"runners\":[],\"runners\":0\x7d")).outcome =
      .error (.invalidListing ⟨.duplicateField "runners", some ⟨1, 23⟩⟩) := by decide +kernel
  have htable : (Table.read (.ofString "[[\"a\",null]]")).outcome =
      .error (.invalidTable ⟨.invalidType .null .string, some ⟨1, 10⟩⟩) := by decide +kernel
  refine ⟨fun t ht => ?_, fun t ht => ?_⟩
  · exact ((first_fault _ _).1 hlisting).decided 23 (by decide +kernel) (by decide +kernel) t (by
      rw [ht]
      decide +kernel)
  · exact ((first_fault _ _).2 htable).decided 10 (by decide +kernel) (by decide +kernel) t (by
      rw [ht]
      decide +kernel)

end BuildFleet
