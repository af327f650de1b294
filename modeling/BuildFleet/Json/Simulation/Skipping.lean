import BuildFleet.Json.Parser.Skip
import BuildFleet.Json.Simulation.Numbers
import BuildFleet.Json.Simulation.Sources

/-!
# JSON — skipped values, and the bytes ahead

A turn of the walk over a skipped value is a step on the bytes ahead, and leaves fewer of them.
-/

namespace BuildFleet.Json.SourceSimulation

variable {σ : Type} [Source σ] {i : Input} (sim : SourceSimulation σ i) {s : σ} {ahead : Bytes}

theorem follows_takeColon (h : sim.Sees s ahead) :
    Follows i sim.At (Given (sim.Passed false)) (readColon i.ending ahead) (Parser.takeColon s) := by
  refine sim.follows_behindBlanks h fun b rest s _ hat => ?_
  split
  · exact .ok (sim.passed (sim.skip hat))
  · exact sim.follows_failPeeked hat .expectedColon

theorem follows_skipKey (h : sim.Sees s ahead) :
    Follows i sim.At (Given (sim.Passed false)) (skipKey i.ending ahead) (Parser.skipKey s) := by
  refine sim.follows_behindBlanks h fun b rest s _ hat => ?_
  split
  · obtain ⟨s', hskip, hat⟩ := sim.skip_cons hat
    rw [Parser.bind_of_ok hskip]
    exact (sim.skipText hat).bind fun _ rest s _ hat => sim.follows_takeColon ⟨false, hat⟩
  · exact sim.follows_failPeeked hat .keyMustBeString

theorem follows_toValue (frame : Frame) (h : sim.Sees s ahead) :
    Follows i sim.At (Given sim.Skipped) (frame.toValue i.ending ahead) (Parser.toValue frame s) := by
  cases frame with
  | list => exact .ok ⟨ahead, rfl, h⟩
  | object => exact sim.follows_skipped (sim.follows_skipKey h)

theorem follows_enter (frame : Frame) (h : sim.Sees s ahead) :
    Follows i sim.At (Given sim.Read) (frame.enter i.ending ahead) (Parser.enter frame s) := by
  refine sim.follows_behindBlanks h fun b rest s _ hat => ?_
  split
  · exact .ok (sim.read (sim.skip hat) Stage.after)
  · exact (sim.follows_toValue frame ⟨true, hat⟩).bind fun _ rest s _ hat =>
      .ok ⟨(.value, rest), rfl, rfl, hat⟩

theorem follows_advance (frame : Frame) (h : sim.Sees s ahead) :
    Follows i sim.At (Given sim.Read) (frame.advance i.ending ahead) (Parser.advance frame s) := by
  refine sim.follows_behindBlanks h fun b rest s _ hat => ?_
  split
  · obtain ⟨s', hskip, hat⟩ := sim.skip_cons hat
    rw [Parser.bind_of_ok hskip]
    exact (sim.follows_toValue frame ⟨false, hat⟩).bind fun _ rest s _ hat =>
      .ok ⟨(.value, rest), rfl, rfl, hat⟩
  split
  · exact .ok (sim.read (sim.skip hat) Stage.after)
  · exact sim.follows_failPeeked hat frame.missingComma

theorem follows_skipScalar {b : UInt8} {rest : Bytes} (h : sim.At s (b :: rest) true) :
    Follows i sim.At (Given sim.Skipped) (skipScalar i.ending b rest) (Parser.skipScalar b s) := by
  have hskip := sim.skip h
  rw [skipScalar, Parser.skipScalar]
  split
  · exact sim.follows_skipped (sim.follows_letters restOfNull hskip)
  split
  · exact sim.follows_skipped (sim.follows_letters restOfTrue hskip)
  split
  · exact sim.follows_skipped (sim.follows_letters restOfFalse hskip)
  split
  · exact sim.follows_skipped (sim.follows_skipNumber hskip)
  split
  · exact sim.follows_skipped (sim.follows_skipNumber h)
  split
  · exact sim.follows_skipped (sim.skipText hskip)
  · exact sim.follows_failPeeked h .expectedValue

theorem follows_skipTurn (walk : Stage × List Frame) (h : sim.Sees s ahead) :
    Follows i sim.At
      (Turned (fun _ => sim.Sees) (fun walk => skipFrames i.ending walk.1 walk.2) sim.Skipped ahead)
      (skipFrames i.ending walk.1 walk.2 ahead) (Parser.skipTurn walk s) := by
  obtain ⟨stage, frames⟩ := walk
  cases stage with
  | value =>
    rw [skipFrames_value]
    refine sim.follows_behindBlanks h fun b rest s hb hat => ?_
    have hshorter := length_of_skipBlanks hb
    cases Frame.opened? b with
    | some frame =>
      refine (sim.follows_enter frame ⟨false, sim.skip hat⟩).bind fun stage w s hw hread => ?_
      obtain ⟨rfl, hsees⟩ := hread
      exact .ok ⟨w.2, hsees, Nat.lt_of_le_of_lt (Frame.length_of_enter hw) hshorter, rfl⟩
    | none =>
      refine (sim.follows_skipScalar hat).bind fun _ rest s hrest hsees => ?_
      exact .ok ⟨rest, hsees, Nat.lt_of_le_of_lt (length_of_skipScalar hrest) hshorter, rfl⟩
  | after =>
    cases frames with
    | nil =>
      refine .ok ?_
      rw [skipFrames]
      exact ⟨ahead, rfl, h⟩
    | cons frame frames =>
      rw [skipFrames_after]
      refine (sim.follows_advance frame h).bind fun stage w s hw hread => ?_
      obtain ⟨rfl, hsees⟩ := hread
      exact .ok ⟨w.2, hsees, Frame.length_of_advance hw, rfl⟩

theorem follows_skipValue (h : sim.Sees s ahead) :
    Follows i sim.At (Given sim.Skipped) (skipValue i.ending ahead) (Parser.skipValue s) :=
  sim.follows_loop (b := (.value, [])) (I := fun _ => sim.Sees) (fun _ _ _ h => h)
    (fun walk _ _ h => sim.follows_skipTurn walk h) h

end BuildFleet.Json.SourceSimulation
