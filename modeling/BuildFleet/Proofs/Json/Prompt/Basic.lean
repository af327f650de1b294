import BuildFleet.Json.Reader
import BuildFleet.Proofs.Json.Grammar

/-!
# JSON — faults that are found at once

A fault counts the bytes of a text up to a place.  What stands behind that place has not been looked at,
apart from the next byte.  So the fault is the same, in the same place, whatever follows that byte.

* `Leaves`: how many bytes are left ahead of a step, by the rest that it leaves or the mark of its fault.
* `SameUpTo`: what is made of two texts that are the same up to some byte, unless it is made of bytes
  behind that one.
* `Prompt`: a step makes the same of two such texts, and leaves no more bytes than there have been.
* `Prompt.bind`: so does a chain of two steps if both do.
-/

namespace BuildFleet.Json

/-- How many bytes are behind those that a mark counts in a text in memory. -/
def Mark.ahead : Mark → Nat
  | .nowhere => 0
  | .consumed left | .looked left | .behind left _ => left
  | .peeked left => left - 1

section

variable {β : Type}

/-- No more than `n` bytes are left ahead, or behind those that a fault counts. -/
def Leaves (n : Nat) : Except Fault (β × Bytes) → Prop
  | .ok (_, rest) => rest.length ≤ n
  | .error fault => fault.mark.ahead ≤ n

theorem Leaves.mono {m n : Nat} {x : Except Fault (β × Bytes)} (h : Leaves m x) (hmn : m ≤ n) :
    Leaves n x := by
  cases x with
  | ok read => exact Nat.le_trans h hmn
  | error fault => exact Nat.le_trans h hmn

/-- At the end of the bytes none is left ahead. -/
theorem leaves_atEnd (cause : Cause) :
    Leaves 0 (.error (Ending.closed.fault cause) : Except Fault (β × Bytes)) :=
  Nat.le_refl 0

/-- What is made of two texts with a byte `b` in front of the last bytes, which are `rest` and `rest'`, and
the same bytes in front of it. -/
inductive SameUpTo (b : UInt8) (rest rest' : Bytes) :
    Except Fault (β × Bytes) → Except Fault (β × Bytes) → Prop where
  /-- The same value, and the byte is left ahead. -/
  | value (v : β) (back : Bytes) :
    SameUpTo b rest rest' (.ok (v, back ++ b :: rest)) (.ok (v, back ++ b :: rest'))
  /-- The same fault, which does not count the byte. -/
  | fault {cause : Cause} {mark mark' : Mark} (back : Nat) :
    mark.ahead = back + 1 + rest.length → mark'.ahead = back + 1 + rest'.length →
    SameUpTo b rest rest' (.error ⟨cause, mark⟩) (.error ⟨cause, mark'⟩)
  /-- In the first one the byte has been taken. -/
  | beyond {x y : Except Fault (β × Bytes)} : Leaves rest.length x → SameUpTo b rest rest' x y

/-- The step decides on its fault by no more than the bytes that this counts and the next one. -/
structure Prompt (f : Bytes → Except Fault (β × Bytes)) (bytes : Bytes) : Prop where
  leaves : Leaves bytes.length (f bytes)
  same {front : Bytes} {b : UInt8} {rest : Bytes} : bytes = front ++ b :: rest →
    ∀ rest', SameUpTo b rest rest' (f bytes) (f (front ++ b :: rest'))

end

namespace Prompt

variable {β γ : Type} {f g : Bytes → Except Fault (β × Bytes)} {bytes rest : Bytes} {b : UInt8}

/-- Nothing is read. -/
theorem ok (v : β) (bytes : Bytes) : Prompt (fun rest => .ok (v, rest)) bytes where
  leaves := Nat.le_refl _
  same := by
    rintro front b rest rfl rest'
    exact .value v front

/-- There is a fault here. -/
theorem fault (cause : Cause) (mark : Nat → Mark) (h : ∀ n, (mark n).ahead = n) (bytes : Bytes) :
    Prompt (fun rest => (.error ⟨cause, mark rest.length⟩ : Except Fault (β × Bytes))) bytes where
  leaves := Nat.le_of_eq (h _)
  same := by
    rintro front b rest rfl rest'
    have hlength : ∀ rest : Bytes, (mark (front ++ b :: rest).length).ahead =
        front.length + 1 + rest.length := by
      intro rest
      rw [h, List.length_append, List.length_cons]
      omega
    exact .fault front.length (hlength rest) (hlength rest')

/-- The byte in front of the rest is the last to count. -/
theorem consumed (cause : Cause) (bytes : Bytes) :
    Prompt (fun rest => (.error ⟨cause, .consumed rest.length⟩ : Except Fault (β × Bytes))) bytes :=
  fault cause .consumed (fun _ => rfl) bytes

/-- So it is in a text, where the byte behind it is only looked at. -/
theorem looked (cause : Cause) (bytes : Bytes) :
    Prompt (fun rest => (.error ⟨cause, .looked rest.length⟩ : Except Fault (β × Bytes))) bytes :=
  fault cause .looked (fun _ => rfl) bytes

/-- And so it is where this byte has been looked at first, and counts. -/
theorem peeked (cause : Cause) (bytes : Bytes) :
    Prompt (fun rest => (.error ⟨cause, .peeked (rest.length + 1)⟩ : Except Fault (β × Bytes))) bytes :=
  fault cause (fun n => .peeked (n + 1)) (fun _ => rfl) bytes

/-- The bytes end here. -/
theorem nil (h : Leaves 0 (f [])) : Prompt f [] where
  leaves := h
  same := by
    intro front b rest hnil
    cases front <;> cases hnil

theorem congr (h : ∀ bytes, f bytes = g bytes) (hg : Prompt g bytes) : Prompt f bytes := by
  obtain rfl := funext h
  exact hg

/-- How it goes on depends on the first byte. -/
theorem first (h : ∀ rest, f (b :: rest) = g (b :: rest)) (hg : Prompt g (b :: rest)) :
    Prompt f (b :: rest) where
  leaves := by
    rw [h]
    exact hg.leaves
  same := by
    intro front c more hbytes rest'
    have hsame := hg.same hbytes rest'
    cases front with
    | nil =>
      obtain ⟨rfl, -⟩ := List.cons.inj hbytes
      rw [h, List.nil_append, h]
      exact hsame
    | cons d front =>
      obtain ⟨rfl, -⟩ := List.cons.inj hbytes
      rw [h, List.cons_append, h]
      exact hsame

/-- The first byte is taken. -/
theorem taken (h : Prompt (fun rest => f (b :: rest)) rest) : Prompt f (b :: rest) where
  leaves := h.leaves.mono (Nat.le_succ _)
  same := by
    intro front c more hbytes rest'
    cases front with
    | nil =>
      -- what is made of the bytes behind it is of no concern
      obtain ⟨rfl, rfl⟩ := List.cons.inj hbytes
      exact .beyond h.leaves
    | cons d front =>
      obtain ⟨rfl, hrest⟩ := List.cons.inj hbytes
      exact h.same hrest rest'

theorem ite {c : Prop} [Decidable c] (hf : c → Prompt f bytes) (hg : ¬ c → Prompt g bytes) :
    Prompt (fun rest => if c then f rest else g rest) bytes := by
  by_cases hc : c
  · simpa only [if_pos hc] using hf hc
  · simpa only [if_neg hc] using hg hc

/-- A fault that counts the bytes in front of `b`, and not `b`, is the same whatever follows `b`. -/
theorem exists_error {fault : Fault} {front : Bytes} (h : Prompt f (front ++ b :: rest))
    (hf : f (front ++ b :: rest) = .error fault) (ha : fault.mark.ahead = rest.length + 1)
    (rest' : Bytes) :
    ∃ mark, f (front ++ b :: rest') = .error ⟨fault.cause, mark⟩ ∧ mark.ahead = rest'.length + 1 := by
  have hsame := h.same rfl rest'
  rw [hf] at hsame
  generalize f (front ++ b :: rest') = y at hsame
  cases hsame with
  | fault back hmark hmark' =>
    refine ⟨_, rfl, ?_⟩
    dsimp only at ha
    omega
  | beyond hleaves =>
    have hle : fault.mark.ahead ≤ rest.length := hleaves
    omega

/-! ### One step after the other -/

/-- A step, and one that goes on where it has come to. -/
theorem bind {h : β × Bytes → Except Fault (γ × Bytes)} (hf : Prompt f bytes)
    (hh : ∀ v rest, f bytes = .ok (v, rest) → Prompt (fun rest => h (v, rest)) rest) :
    Prompt (fun bytes => f bytes >>= h) bytes where
  leaves := by
    have hleaves := hf.leaves
    show Leaves _ (f bytes >>= h)
    rcases hx : f bytes with fault | ⟨v, rest⟩
    · rw [hx] at hleaves
      exact hleaves
    · rw [hx] at hleaves
      exact (hh v rest hx).leaves.mono hleaves
  same := by
    intro front b rest hbytes rest'
    have hsame := hf.same hbytes rest'
    show SameUpTo b rest rest' (f bytes >>= h) (f (front ++ b :: rest') >>= h)
    rcases hx : f bytes with fault | ⟨v, more⟩
    · rw [hx] at hsame
      generalize f (front ++ b :: rest') = y at hsame
      cases hsame with
      | fault back hmark hmark' => exact .fault back hmark hmark'
      | beyond hleaves => exact .beyond hleaves
    · have hmore := hh v more hx
      rw [hx] at hsame
      generalize f (front ++ b :: rest') = y at hsame
      cases hsame with
      | value v back => exact hmore.same rfl rest'
      | beyond hleaves => exact .beyond (hmore.leaves.mono hleaves)

/-! ### Blanks and digits in front -/

/-- The blanks are taken. -/
theorem skips (hskip : ∀ bytes, f (skipBlanks bytes) = f bytes) (hnil : Leaves 0 (f []))
    (hcons : ∀ b rest, skipBlanks bytes = b :: rest → (∀ rest, skipBlanks (b :: rest) = b :: rest) →
      Prompt f (b :: rest)) : Prompt f bytes := by
  induction bytes with
  | nil => exact .nil hnil
  | cons b rest ih =>
    cases hb : isBlank b with
    | true =>
      have hrest : ∀ rest, skipBlanks (b :: rest) = skipBlanks rest := fun rest =>
        List.dropWhile_cons_of_pos hb
      refine .taken (.congr (fun rest => ?_) (ih fun c more hc => hcons c more ?_))
      · rw [← hskip, hrest, hskip]
      · rw [hrest, hc]
    | false => exact hcons b rest (skipBlanks_of_not_blank hb rest) (skipBlanks_of_not_blank hb)

/-- All the digits are taken. -/
theorem digits {k : Bytes → Bytes → Except Fault (β × Bytes)} (hk : ∀ ds rest, Prompt (k ds) rest)
    (bytes : Bytes) :
    Prompt (fun bytes => k (bytes.takeWhile isDigit) (bytes.dropWhile isDigit)) bytes := by
  induction bytes generalizing k with
  | nil => exact .nil (hk [] []).leaves
  | cons d rest ih =>
    cases hd : isDigit d with
    | true =>
      refine .taken (.congr (fun rest => ?_) (ih fun ds rest => hk (d :: ds) rest))
      rw [List.takeWhile_cons_of_pos hd, List.dropWhile_cons_of_pos hd]
    | false =>
      refine .first (fun rest => ?_) (hk [] (d :: rest))
      rw [List.takeWhile_cons_of_neg (by simp [hd]), List.dropWhile_cons_of_neg (by simp [hd])]

end Prompt

end BuildFleet.Json
