import BuildFleet.Machine.Reading
import BuildFleet.Proofs.Json.Records
import BuildFleet.Runner.Listing

/-!
# Members that nobody asks for

The member of a key that names no field is passed over, whatever its value.  The members and the records
behind it are read as if it were not there, and a fault in them stays the same fault in the same place.

* `skipValue_of_value`, `exists_value_of_skipValue`: what is passed over is one value, and no byte more.
* `Record.readMembers_unknown`: with it, its member is passed over.
* `Record.passesUnknown`: so it may be left out, wherever it stands.
* `unknown_members`: listings, runners and machines are read so.
-/

namespace BuildFleet.Json

namespace Record

variable {σ α : Type} {r : Record σ α} {e : Ending} {seen : List String} {s : σ}
variable {key : String} {value member rest : Bytes}

/-- The key names no field. -/
def Unknown (r : Record σ α) (key : String) : Prop :=
  ∀ field ∈ r.fields, field.key ≠ key

theorem find?_of_unknown (h : r.Unknown key) : r.fields.find? (·.key == key) = none := by
  rw [List.find?_eq_none]
  intro field hf hk
  exact h field hf (eq_of_beq hk)

/-- The member of an unknown key, from behind the first quote on. -/
theorem readMember_unknown (hk : r.Unknown key) (hm : Member (key, value) (quote :: member))
    (hv : Value value) (hr : Ends e rest) :
    r.readMember e seen s (member ++ rest) = .ok ((seen, s), rest) := by
  generalize hq : quote :: member = whole at hm
  cases hm with
  | @colon _ literal before after _ hl hbefore hafter =>
    cases hl with
    | @quoted body hbody =>
      have hmember : member = body ++ quote :: (before ++ colon :: (after ++ value)) := by
        simpa using (List.cons.inj hq).2
      have hkey : readText e (member ++ rest) = .ok (key, before ++ colon :: (after ++ value ++ rest)) :=
        readText_eq_ok_iff.mpr ⟨body, hbody, by rw [hmember]; simp⟩
      have hcolon : readColon e (before ++ colon :: (after ++ value ++ rest)) =
          .ok (after ++ value ++ rest) :=
        readColon_eq_ok_iff.mpr ⟨before, hbefore, rfl⟩
      have hskip : skipField e (before ++ colon :: (after ++ value ++ rest)) = .ok rest :=
        bind_eq_ok.mpr ⟨_, hcolon, skipValue_of_value hafter hv hr⟩
      rw [readMember, hkey]
      dsimp only [bind, Except.bind]
      rw [find?_of_unknown hk]
      dsimp only
      rw [hskip]

/-- The member of an unknown key, with what divides it from those in front. -/
theorem readMembers_unknown {first : Bool} {separator : Bytes} (hs : Separator first separator)
    (hk : r.Unknown key) (hm : Member (key, value) member) (hv : Value value) (hr : Ends e rest) :
    r.readMembers e first seen s (separator ++ member ++ rest) = r.readMembers e false seen s rest := by
  obtain ⟨text, rfl⟩ := hm.exists_cons
  have hkey : nextKey e first (separator ++ quote :: text ++ rest) = .ok (.value, text ++ rest) :=
    nextKey_value_iff.mpr ⟨separator, hs, by simp⟩
  rw [readMembers_eq, hkey]
  show (r.readMember e seen s (text ++ rest) >>= _) = _
  rw [readMember_unknown hk hm hv hr]
  rfl

/-! ### Members in front -/

/-- Behind a comma a key is looked for as at the start, unless the members end there. -/
theorem nextKey_comma {gap more tail : Bytes} {b : UInt8} (hg : Blanks gap)
    (hmore : skipBlanks more = b :: tail) (hb : b ≠ closeBrace) :
    nextKey e false (gap ++ comma :: more) = nextKey e true more := by
  have hclose : (b == closeBrace) = false := beq_eq_false_iff_ne.mpr hb
  rw [nextKey, nextKey, skipBlanks_gap hg rfl, hmore]
  simp [hmore, hclose, show (comma == closeBrace) = false from rfl]

theorem readMembers_comma {gap more tail : Bytes} {b : UInt8} (hg : Blanks gap)
    (hmore : skipBlanks more = b :: tail) (hb : b ≠ closeBrace) :
    r.readMembers e false seen s (gap ++ comma :: more) = r.readMembers e true seen s more := by
  rw [readMembers_eq, readMembers_eq, nextKey_comma hg hmore hb]

/-- Where the members end, it makes no difference whether there have been any. -/
theorem readMembers_closeBrace {first : Bool} {gap : Bytes} (hg : Blanks gap) :
    r.readMembers e first seen s (gap ++ closeBrace :: rest) = .ok (s, closeBrace :: rest) := by
  rw [readMembers_eq, nextKey_after_iff.mpr ⟨gap, rest, hg, rfl, rfl⟩]
  rfl

/-- Members of unknown keys may be left out. -/
structure PassesUnknown (r : Record σ α) : Prop where
  /-- Behind other members, together with the comma in front. -/
  behind {e : Ending} {seen : List String} {s : σ} {key : String} {value member before after rest : Bytes} :
    r.Unknown key → Member (key, value) member → Value value → Blanks before → Blanks after → Ends e rest →
    r.readMembers e false seen s (before ++ comma :: after ++ member ++ rest) =
      r.readMembers e false seen s rest
  /-- In front of other members, together with the comma behind. -/
  inFront {e : Ending} {seen : List String} {s : σ} {key : String}
    {value member before after more tail : Bytes} {b : UInt8} :
    r.Unknown key → Member (key, value) member → Value value → Blanks before → Blanks after →
    skipBlanks more = b :: tail → b ≠ closeBrace →
    r.readMembers e true seen s (before ++ member ++ (after ++ comma :: more)) =
      r.readMembers e true seen s more
  /-- As the only one. -/
  alone {e : Ending} {seen : List String} {s : σ} {key : String} {value member before after rest : Bytes} :
    r.Unknown key → Member (key, value) member → Value value → Blanks before → Blanks after →
    r.readMembers e true seen s (before ++ member ++ (after ++ closeBrace :: rest)) =
      r.readMembers e true seen s (closeBrace :: rest)

theorem passesUnknown (r : Record σ α) : r.PassesUnknown where
  behind hk hm hv hb ha hr := readMembers_unknown (.next hb ha) hk hm hv hr
  inFront hk hm hv hb ha hmore hne := by
    rw [readMembers_unknown (.first hb) hk hm hv (ends_of_blanks ha (.inl rfl) _)]
    exact readMembers_comma ha hmore hne
  alone {e seen s _ _ _ _ _ rest} hk hm hv hb ha := by
    have hclose : r.readMembers e true seen s ([] ++ closeBrace :: rest) = .ok (s, closeBrace :: rest) :=
      readMembers_closeBrace blanks_nil
    rw [readMembers_unknown (.first hb) hk hm hv (ends_of_blanks ha (.inr (.inr rfl)) _),
      readMembers_closeBrace ha]
    exact hclose.symm

end Record

end BuildFleet.Json

namespace BuildFleet
open Json

/-- **A value that nobody asks for is passed over as a whole.**  Where a value stands behind blanks, of any
depth and size, and nothing follows that could be more of it, it is passed over up to its end.  Whatever is
passed over is blanks and one value.  So members of keys that are not known may be left out of a listing, a
runner or a machine. -/
theorem unknown_members :
    (∀ e gap text rest, Blanks gap → Value text → Ends e rest →
      skipValue e (gap ++ text ++ rest) = .ok rest) ∧
    (∀ e bytes rest, skipValue e bytes = .ok rest →
      ∃ gap text, Blanks gap ∧ Value text ∧ bytes = gap ++ text ++ rest) ∧
    Listing.record.PassesUnknown ∧ Runner.record.PassesUnknown ∧ Machine.record.PassesUnknown :=
  ⟨fun _ _ _ _ => skipValue_of_value, fun _ _ _ => exists_value_of_skipValue,
    Record.passesUnknown _, Record.passesUnknown _, Record.passesUnknown _⟩

/-- The value `[[],[null]]`. -/
def nestedLists : Bytes :=
  [openBracket, openBracket, closeBracket, comma, openBracket, letterN, 0x75, 0x6c, 0x6c, closeBracket,
    closeBracket]

/-- Nested lists are passed over up to the brace behind them.  As the value of the key `x` they may be
left out of a runner, in front of any other members. -/
theorem unknown_members_nested :
    skipValue .closed ([] ++ nestedLists ++ [closeBrace]) = .ok [closeBrace] ∧
    ∀ more, Runner.record.readMembers .closed true [] {}
        ([] ++ (quote :: 0x78 :: quote :: colon :: nestedLists) ++ ([] ++ comma :: quote :: more)) =
      Runner.record.readMembers .closed true [] {} (quote :: more) := by
  have hinner : Value [openBracket, letterN, 0x75, 0x6c, 0x6c, closeBracket] :=
    .list (.lastElement blanks_nil .null blanks_nil)
  have helements : Phrase .elements
      [openBracket, closeBracket, comma, openBracket, letterN, 0x75, 0x6c, 0x6c, closeBracket] :=
    .element blanks_nil (.emptyList blanks_nil) blanks_nil (.lastElement blanks_nil hinner blanks_nil)
  have hvalue : Value nestedLists := .list helements
  have hspelling : Spelling "x".toList [0x78] :=
    .cons (.plain (by decide) (by decide) (by decide)) .nil
  have hmember : Member ("x", nestedLists) (quote :: 0x78 :: quote :: colon :: nestedLists) :=
    .colon (.quoted hspelling) blanks_nil blanks_nil
  have hunknown : Runner.record.Unknown "x" := by
    simp [Record.Unknown, Runner.record]
  refine ⟨unknown_members.1 _ _ _ _ blanks_nil hvalue (.inr (.inr (.inr rfl))), fun more => ?_⟩
  exact unknown_members.2.2.2.1.inFront hunknown hmember hvalue blanks_nil blanks_nil
    (skipBlanks_of_not_blank rfl more) (by decide)

end BuildFleet
