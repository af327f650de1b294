/-!
# Text — ranges of characters

A set of characters, written as the list of its maximal runs of consecutive code points.  The
tables of this folder are sets of this kind.
-/

namespace BuildFleet.Text

/-- The first and the last code point of each run, in ascending order. -/
abbrev CharRanges := List (Nat × Nat)

/-- Some run of the set holds the character. -/
def CharRanges.contains (ranges : CharRanges) (c : Char) : Bool :=
  ranges.any fun (first, last) => first ≤ c.toNat && c.toNat ≤ last

theorem CharRanges.contains_iff {ranges : CharRanges} {c : Char} :
    ranges.contains c = true ↔ ∃ r ∈ ranges, r.1 ≤ c.toNat ∧ c.toNat ≤ r.2 := by
  simp [CharRanges.contains]

end BuildFleet.Text
