import BuildFleet.Output

/-!
# Output — lines through a buffer

While nothing is refused, what the sink holds and what is kept back are together what has been written
(`Buffered.Holds`).  Once something is refused, the text up to there is too long for the sink, which holds
a front of it (`Buffered.Stopped`).

* `Buffered.Appends`: a step after which one of the two is so again, with a piece more in the text.
* `Buffered.write_appends`, `Buffered.writeLine_appends`: a piece and a line are such steps.
* `Buffered.forM_writeLine_appends`: so is any number of lines, by induction on them.
* `Buffered.writeLines_cases`: all lines are held in the end, or they are too long.
-/

namespace BuildFleet

/-- Each text on a line of its own. -/
def lines (texts : List String) : String :=
  String.join (texts.map (· ++ "\n"))

theorem lines_cons (text : String) (texts : List String) :
    lines (text :: texts) = text ++ "\n" ++ lines texts := by
  rw [lines, List.map_cons, String.join_cons]
  rfl

/-- The text is not longer than the room, if that is limited. -/
def Fits (room : Option Nat) (text : String) : Prop :=
  ∀ n, room = some n → text.utf8ByteSize ≤ n

theorem fits_empty (room : Option Nat) : Fits room "" :=
  fun n _ => Nat.zero_le n

theorem fits_none (text : String) : Fits none text := nofun

theorem Fits.of_append {room : Option Nat} {text more : String} (h : Fits room (text ++ more)) :
    Fits room text := by
  intro n hn
  have hall := h n hn
  rw [String.utf8ByteSize_append] at hall
  exact Nat.le_of_add_right_le hall

theorem Sink.take_of_fits {s : Sink} {piece : String} (h : Fits s.room (s.held ++ piece)) :
    s.take piece = .ok { s with held := s.held ++ piece } := by
  rw [take, if_pos]
  cases hr : s.room with
  | none => rfl
  | some n => simpa using h n hr

theorem Sink.take_of_not_fits {s : Sink} {piece : String} (h : ¬ Fits s.room (s.held ++ piece)) :
    s.take piece = .error (.refused .stdout) := by
  rw [take, if_neg]
  intro hall
  refine h fun n hr => ?_
  rw [hr] at hall
  simpa using hall

namespace Buffered

variable {room : Option Nat} {text piece : String} {w : Buffered}

/-- What is held and what is kept back are together the text, and what is held is not too long. -/
structure Holds (room : Option Nat) (text : String) (w : Buffered) : Prop where
  same : w.sink.room = room
  whole : w.sink.held ++ w.pending = text
  fits : Fits room w.sink.held

/-- The text is too long, and what is held is a front of it that is not. -/
structure Stopped (room : Option Nat) (text : String) (w : Buffered) : Prop where
  same : w.sink.room = room
  front : ∃ rest, w.sink.held ++ w.pending ++ rest = text
  fits : Fits room w.sink.held
  full : ¬ Fits room text

/-- Where the text has been written, or refused. -/
def Written (room : Option Nat) (text : String) : EStateM.Result SystemError Buffered Unit → Prop
  | .ok () w => w.Holds room text
  | .error _ w => w.Stopped room text

/-- Whatever has been written, this adds the piece to it. -/
def Appends (x : Writing) (piece : String) : Prop :=
  ∀ room text w, Holds room text w → Written room (text ++ piece) (x w)

/-! ### Steps -/

theorem Stopped.append (h : w.Stopped room text) (more : String) : w.Stopped room (text ++ more) := by
  obtain ⟨rest, hrest⟩ := h.front
  refine ⟨h.same, ⟨rest ++ more, ?_⟩, h.fits, fun hall => h.full hall.of_append⟩
  rw [← String.append_assoc, hrest]

theorem Appends.bind {x y : Writing} {more : String} (hx : Appends x piece) (hy : Appends y more) :
    Appends (do x; y) (piece ++ more) := by
  intro room text w hw
  have hfirst := hx room text w hw
  show Written room (text ++ (piece ++ more)) (EStateM.bind x (fun _ => y) w)
  rw [EStateM.bind, ← String.append_assoc]
  split
  · rename_i heq
    rw [heq] at hfirst
    exact hy _ _ _ hfirst
  · rename_i heq
    rw [heq] at hfirst
    exact hfirst.append more

theorem pure_appends : Appends (pure ()) "" := by
  intro room text w hw
  rw [String.append_empty]
  exact hw

theorem keep_appends (piece : String) : Appends (keep piece) piece := by
  intro room text w hw
  refine ⟨hw.same, ?_, hw.fits⟩
  show w.sink.held ++ (w.pending ++ piece) = text ++ piece
  rw [← String.append_assoc, hw.whole]

/-- With nothing kept back, a piece is handed over behind all that was written. -/
theorem handOver_written (hw : w.Holds room text) (hempty : w.pending = "") (piece : String) :
    Written room (text ++ piece) (handOver piece w) := by
  have hheld : w.sink.held = text := by
    rw [← hw.whole, hempty, String.append_empty]
  rw [handOver]
  by_cases hfits : Fits room (text ++ piece)
  · rw [Sink.take_of_fits (by rw [hw.same, hheld]; exact hfits)]
    refine ⟨hw.same, ?_, ?_⟩
    · show w.sink.held ++ piece ++ w.pending = text ++ piece
      rw [hempty, String.append_empty, hheld]
    · show Fits room (w.sink.held ++ piece)
      rw [hheld]
      exact hfits
  · rw [Sink.take_of_not_fits (by rw [hw.same, hheld]; exact hfits)]
    refine ⟨hw.same, ⟨piece, ?_⟩, hw.fits, hfits⟩
    rw [hw.whole]

theorem flush_of_empty (h : w.pending = "") : flush w = .ok () w := by
  have hempty : w.pending.isEmpty = true := String.isEmpty_iff.mpr h
  show (if w.pending.isEmpty then pure () else _ : Writing) w = _
  rw [if_pos hempty]
  rfl

theorem flush_of_pending (h : w.pending ≠ "") :
    flush w =
      match w.sink.take w.pending with
      | .ok sink => .ok () { sink }
      | .error error => .error error w := by
  have hpending : ¬ w.pending.isEmpty = true := fun hempty => h (String.isEmpty_iff.mp hempty)
  show (if w.pending.isEmpty then pure () else _ : Writing) w = _
  rw [if_neg hpending]
  show EStateM.bind (handOver w.pending) _ w = _
  rw [EStateM.bind, handOver]
  cases w.sink.take w.pending <;> rfl

/-- What is kept back is handed over as a whole, or refused as a whole. -/
theorem flush_cases (hw : w.Holds room text) :
    (∃ w', flush w = .ok () w' ∧ w'.Holds room text ∧ w'.pending = "") ∨
      ∃ error, flush w = .error error w ∧ w.Stopped room text := by
  by_cases hempty : w.pending = ""
  · exact .inl ⟨w, flush_of_empty hempty, hw, hempty⟩
  rw [flush_of_pending hempty]
  by_cases hfits : Fits room text
  · rw [Sink.take_of_fits (by rw [hw.same, hw.whole]; exact hfits)]
    refine .inl ⟨_, rfl, ⟨hw.same, ?_, ?_⟩, rfl⟩
    · rw [String.append_empty]
      exact hw.whole
    · rw [hw.whole]
      exact hfits
  · rw [Sink.take_of_not_fits (by rw [hw.same, hw.whole]; exact hfits)]
    refine .inr ⟨_, rfl, hw.same, ⟨"", ?_⟩, hw.fits, hfits⟩
    rw [String.append_empty]
    exact hw.whole

/-- There is room for the piece in the buffer now, or nothing is left in it. -/
theorem makeRoom_cases (hw : w.Holds room text) (piece : String) :
    (∃ w', makeRoom piece w = .ok () w' ∧ w'.Holds room text ∧
        (capacity ≤ piece.utf8ByteSize → w'.pending = "")) ∨
      ∃ error, makeRoom piece w = .error error w ∧ w.Stopped room text := by
  have heq : makeRoom piece w = (if w.spare < piece.utf8ByteSize then flush else pure ()) w := rfl
  rw [heq]
  by_cases hspare : w.spare < piece.utf8ByteSize
  · rw [if_pos hspare]
    rcases flush_cases hw with ⟨w', hflush, hw', hempty⟩ | hstop
    · exact .inl ⟨w', hflush, hw', fun _ => hempty⟩
    · exact .inr hstop
  · rw [if_neg hspare]
    refine .inl ⟨w, rfl, hw, fun hlong => ?_⟩
    -- a piece as long as the buffer only fits behind nothing
    rw [spare] at hspare
    have hpos : 0 < capacity := by decide
    exact String.utf8ByteSize_eq_zero_iff.mp (by omega)

theorem write_appends (piece : String) : Appends (write piece) piece := by
  intro room text w hw
  have heq : write piece w =
      (if piece.utf8ByteSize < w.spare then keep piece
        else do makeRoom piece
                if capacity ≤ piece.utf8ByteSize then handOver piece else keep piece : Writing) w :=
    rfl
  rw [heq]
  split
  · exact keep_appends piece _ _ _ hw
  · show Written room (text ++ piece) (EStateM.bind (makeRoom piece) _ w)
    rcases makeRoom_cases hw piece with ⟨w', hroom, hw', hempty⟩ | ⟨error, hroom, hstop⟩
    · rw [EStateM.bind, hroom]
      dsimp only
      split
      · rename_i hlong
        exact handOver_written hw' (hempty hlong) piece
      · exact keep_appends piece _ _ _ hw'
    · rw [EStateM.bind, hroom]
      exact hstop.append piece

theorem writeLine_appends (text : String) : Appends (writeLine text) (text ++ "\n") :=
  (write_appends text).bind (write_appends "\n")

/-! ### Runs -/

theorem forM_writeLine_appends (texts : List String) : Appends (texts.forM writeLine) (lines texts) := by
  induction texts with
  | nil => exact pure_appends
  | cons text texts ih =>
    rw [lines_cons]
    exact (writeLine_appends text).bind ih

theorem Holds.start (room : Option Nat) : Holds room "" { sink := { room } } :=
  ⟨rfl, rfl, fits_empty room⟩

theorem close_of_empty (h : w.pending = "") : w.close = w.sink.held := by
  rw [close, flush_of_empty h]

/-- What is offered once more at the end is a part of the text, too. -/
theorem Stopped.close (h : w.Stopped room text) :
    Fits room w.close ∧ ∃ rest, text = w.close ++ rest := by
  obtain ⟨rest, hrest⟩ := h.front
  by_cases hempty : w.pending = ""
  · rw [close_of_empty hempty]
    refine ⟨h.fits, rest, ?_⟩
    rw [← hrest, hempty, String.append_empty]
  rw [Buffered.close, flush_of_pending hempty]
  by_cases hfits : Fits room (w.sink.held ++ w.pending)
  · rw [Sink.take_of_fits (by rw [h.same]; exact hfits)]
    exact ⟨hfits, rest, hrest.symm⟩
  · rw [Sink.take_of_not_fits (by rw [h.same]; exact hfits)]
    refine ⟨h.fits, w.pending ++ rest, ?_⟩
    rw [← hrest, String.append_assoc]

/-- **All lines are held in the end, or they are too long**, and then a front of them is held. -/
theorem writeLines_cases (texts : List String) (room : Option Nat) :
    (∃ w, writeLines texts { sink := { room } } = .ok () w ∧ Fits room (lines texts) ∧
        w.close = lines texts) ∨
      ∃ error w, writeLines texts { sink := { room } } = .error error w ∧
        ¬ Fits room (lines texts) ∧ Fits room w.close ∧ ∃ rest, lines texts = w.close ++ rest := by
  have hall := forM_writeLine_appends texts room "" _ (.start room)
  rw [String.empty_append] at hall
  show (∃ w, EStateM.bind (texts.forM writeLine) (fun _ => flush) _ = .ok () w ∧ _) ∨
    ∃ error w, EStateM.bind (texts.forM writeLine) (fun _ => flush) _ = .error error w ∧ _
  rw [EStateM.bind]
  split
  case h_1 w hlines =>
    rw [hlines] at hall
    rcases flush_cases hall with ⟨w', hflush, hw', hempty⟩ | ⟨error, hflush, hstop⟩
    · -- nothing is kept back any more, so the sink holds all of it
      have hheld : w'.sink.held = lines texts := by
        rw [← hw'.whole, hempty, String.append_empty]
      refine .inl ⟨w', hflush, hheld ▸ hw'.fits, ?_⟩
      rw [close_of_empty hempty, hheld]
    · exact .inr ⟨error, w, hflush, hstop.full, hstop.close⟩
  case h_2 error w hlines =>
    rw [hlines] at hall
    exact .inr ⟨error, w, rfl, hall.full, hall.close⟩

end Buffered

end BuildFleet
