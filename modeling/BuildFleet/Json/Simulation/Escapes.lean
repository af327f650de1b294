import BuildFleet.Json.Simulation

/-!
# JSON — words and escapes

The letters of words and the escapes of strings are read byte by byte on any cursor, but for the four
digits of a code unit.
-/

namespace BuildFleet.Json.Simulation

variable {σ : Type} [Cursor σ] {i : Input} (sim : Simulation σ i) {s : σ} {ahead : Bytes}

theorem follows_letters (letters : Bytes) (h : sim.At s ahead false) :
    Follows i sim.At (Given (sim.Passed false)) (readLetters i.ending letters ahead)
      (Parser.letters letters s) := by
  induction letters generalizing s ahead with
  | nil => exact .ok (sim.passed h)
  | cons letter letters ih =>
    cases ahead with
    | nil => exact sim.follows_nextOr_nil h _
    | cons b rest =>
      obtain ⟨s', hnext, hat⟩ := sim.nextOr_cons h (.ended .value)
      rw [Parser.letters, Parser.bind_of_ok hnext, readLetters]
      split
      · exact ih hat
      · exact sim.follows_fail hat .expectedIdent

/-! ### Escapes -/

theorem follows_continueEscape (expected : UInt8) (h : sim.At s ahead false) :
    Follows i sim.At (Given (sim.Passed false)) (continueEscape i.ending expected ahead)
      (Parser.continueEscape expected s) := by
  cases ahead with
  | nil => exact sim.follows_peekOr_nil h _
  | cons b rest =>
    obtain ⟨s', hpeek, hat⟩ := sim.peekOr_cons h (.ended .string)
    obtain ⟨s'', hskip, hat⟩ := sim.skip_cons hat
    rw [Parser.continueEscape, Parser.bind_of_ok hpeek, Parser.bind_of_ok hskip, continueEscape]
    split
    · exact .ok (sim.passed hat)
    · exact sim.follows_fail hat .unexpectedEndOfEscape

theorem follows_unitEscape (h : sim.At s ahead false) :
    Follows i sim.At (Given (sim.Took false)) (readUnitEscape i.ending ahead) (Parser.unitEscape s) := by
  refine (sim.codeUnit h).bind fun unit w s _ hw => ?_
  obtain ⟨unit, rest⟩ := w
  obtain ⟨rfl, hat⟩ := hw
  dsimp only
  split
  · exact sim.follows_fail hat .loneSurrogate
  split
  · refine (sim.follows_continueEscape backslash hat).bind fun _ rest s _ hat => ?_
    refine (sim.follows_continueEscape letterU hat).bind fun _ rest s _ hat => ?_
    refine (sim.codeUnit hat).bind fun trailing w s _ hw => ?_
    obtain ⟨trailing, rest⟩ := w
    obtain ⟨rfl, hat⟩ := hw
    dsimp only
    split
    · exact .pure (sim.took hat _)
    · exact sim.follows_fail hat .loneSurrogate
  · exact .pure (sim.took hat _)

theorem follows_escape (h : sim.At s ahead false) :
    Follows i sim.At (Given (sim.Took false)) (readEscape i.ending ahead) (Parser.escape s) := by
  cases ahead with
  | nil => exact sim.follows_nextOr_nil h _
  | cons b rest =>
    obtain ⟨s', hnext, hat⟩ := sim.nextOr_cons h (.ended .string)
    rw [Parser.escape, Parser.bind_of_ok hnext, readEscape]
    cases shortEscape? b with
    | some byte => exact .ok (sim.took hat _)
    | none =>
      dsimp only
      split
      · exact sim.follows_unitEscape hat
      · exact sim.follows_fail hat .invalidEscape

theorem follows_skipEscape (h : sim.At s ahead false) :
    Follows i sim.At (Given (sim.Passed false)) (skipEscape i.ending ahead) (Parser.skipEscape s) := by
  cases ahead with
  | nil => exact sim.follows_nextOr_nil h _
  | cons b rest =>
    obtain ⟨s', hnext, hat⟩ := sim.nextOr_cons h (.ended .string)
    rw [Parser.skipEscape, Parser.bind_of_ok hnext, skipEscape]
    split
    · exact .ok (sim.passed hat)
    split
    · exact (sim.codeUnit hat).bind fun _ w _ _ hw => .ok (sim.passed hw.2)
    · exact sim.follows_fail hat .invalidEscape

/-- Bytes that are no UTF-8 are an error behind what has been taken, as many columns back as there are bytes
from the first wrong one on. -/
theorem follows_decoded (h : sim.At s ahead false) (bytes : Bytes) :
    Follows i sim.At (Given (sim.Took false))
      (match Text.Utf8.decode? bytes with
        | some text => .ok (text, ahead)
        | none => .error ⟨.invalidCodePoint,
            .behind ahead.length (bytes.length - Text.Utf8.validLength bytes)⟩)
      (Parser.decoded bytes s) := by
  rw [Parser.decoded]
  cases Text.Utf8.decode? bytes with
  | some text => exact .ok (sim.took h text)
  | none =>
    refine .placed ?_
    rw [← Option.some.inj (sim.place h)]
    rfl

end BuildFleet.Json.Simulation
