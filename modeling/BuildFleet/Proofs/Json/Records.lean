import Mathlib.Data.List.Forall2
import BuildFleet.Json.Record
import BuildFleet.Proofs.Json.Items

/-!
# JSON — records

A record is read from an object by going through its members, and from a list by going through its
fields.  What comes out does not depend on the way: each field has the value that its only member
spells, or its element, or the default (`Layout.Filled`).

A `Layout` says of a record how each field is spelled and where its value is kept.

* `Layout.collects_iff`: going through the members, in any order, gives each field what they say of
  it (`Layout.Says`), if no known key comes twice.
* `Layout.record_reads`: a record is read from what fills its fields, if that is enough to build it.
-/

namespace BuildFleet.Json

/-! ### What members say of a field -/

section FieldText

variable {β : Type} {key : String} {Spells : β → Bytes → Prop} {default v : β}
variable {members : List (String × Bytes)}

theorem filter_key_eq_nil_iff : members.filter (·.1 = key) = [] ↔ ∀ m ∈ members, m.1 ≠ key := by
  simp [List.filter_eq_nil_iff]

theorem fieldText_of_absent (h : ∀ m ∈ members, m.1 ≠ key) :
    FieldText key Spells default members v ↔ v = default := by
  refine ⟨fun hf => ?_, ?_⟩
  · cases hf with
    | absent => rfl
    | present hp =>
      rw [filter_key_eq_nil_iff.mpr h] at hp
      cases hp
  · rintro rfl
    exact .absent h

theorem fieldText_cons_of_ne {m : String × Bytes} (hm : m.1 ≠ key) :
    FieldText key Spells default (m :: members) v ↔ FieldText key Spells default members v := by
  have hfilter : (m :: members).filter (·.1 = key) = members.filter (·.1 = key) := by
    simp [hm]
  refine ⟨fun hf => ?_, fun hf => ?_⟩
  · cases hf with
    | absent h => exact .absent fun x hx => h x (List.mem_cons_of_mem m hx)
    | present hp hs => exact .present (hfilter ▸ hp) hs
  · cases hf with
    | absent h =>
      refine .absent fun x hx => ?_
      rcases List.mem_cons.mp hx with rfl | hx
      · exact hm
      · exact h x hx
    | present hp hs => exact .present (hfilter.trans hp) hs

theorem fieldText_cons_self {text : Bytes} :
    FieldText key Spells default ((key, text) :: members) v ↔
      Spells v text ∧ ∀ m ∈ members, m.1 ≠ key := by
  have hfilter : ((key, text) :: members).filter (·.1 = key) =
      (key, text) :: members.filter (·.1 = key) := by
    simp
  refine ⟨fun hf => ?_, ?_⟩
  · cases hf with
    | absent h => exact absurd rfl (h _ List.mem_cons_self)
    | present hp hs =>
      rw [hfilter, List.cons.injEq, filter_key_eq_nil_iff] at hp
      rcases hp with ⟨hm, hrest⟩
      cases hm
      exact ⟨hs, hrest⟩
  · rintro ⟨hs, hrest⟩
    refine .present ?_ hs
    rw [hfilter, filter_key_eq_nil_iff.mpr hrest]

end FieldText

/-! ### Layouts -/

/-- How the fields of a record are spelled, and where their values are kept. -/
structure Layout {σ α : Type} (r : Record σ α) where
  /-- The fields, and their order. -/
  Index : Type
  order : List Index
  key : Index → String
  /-- The values of a field, and their spellings. -/
  Part : Index → Type
  Spells : (i : Index) → Part i → Bytes → Prop
  get : (i : Index) → σ → Part i
  set : (i : Index) → Part i → σ → σ
  reader : (i : Index) → Reader (Part i)
  reads : ∀ i, (reader i).Reads (Spells i)
  fields_eq : r.fields = order.map fun i => ⟨key i, (reader i).map (set i)⟩
  mem_order : ∀ i, i ∈ order
  nodup_order : order.Nodup
  key_injective : ∀ {i j}, key i = key j → i = j
  get_set : ∀ {i v s}, get i (set i v s) = v
  get_set_of_ne : ∀ {i j v s}, j ≠ i → get j (set i v s) = get j s
  ext : ∀ {s s'}, (∀ i, get i s = get i s') → s = s'

namespace Layout

variable {σ α : Type} {r : Record σ α} (L : Layout r)

/-- The keys of the fields. -/
def Known (key : String) : Prop :=
  ∃ i, L.key i = key

def field (i : L.Index) : Field σ :=
  ⟨L.key i, (L.reader i).map (L.set i)⟩

/-- What one member does to what was read so far, and to the keys seen. -/
inductive Takes (seen : List String) (s : σ) : String × Bytes → List String → σ → Prop where
  | field {i : L.Index} {v : L.Part i} {text : Bytes} : L.key i ∉ seen → L.Spells i v text →
      Takes seen s (L.key i, text) (L.key i :: seen) (L.set i v s)
  | other {key : String} {text : Bytes} : ¬ L.Known key → Value text →
      Takes seen s (key, text) seen s

/-- What members do to what was read so far, one after the other. -/
inductive Collects : List String → σ → List (String × Bytes) → σ → Prop where
  | nil {seen : List String} {s : σ} : Collects seen s [] s
  | cons {seen seen' : List String} {s s' s'' : σ} {m : String × Bytes}
      {members : List (String × Bytes)} : L.Takes seen s m seen' s' →
      Collects seen' s' members s'' → Collects seen s (m :: members) s''

/-- What members say of a record, whatever their order: each field is as they say, and the keys seen
before do not come again. -/
structure Says (seen : List String) (s : σ) (members : List (String × Bytes)) (s' : σ) : Prop where
  others : Others L.Known members
  fields : ∀ i, FieldText (L.key i) (L.Spells i) (L.get i s) members (L.get i s')
  unseen : ∀ i, L.key i ∈ seen → ∀ m ∈ members, m.1 ≠ L.key i

theorem says_nil_iff {seen : List String} {s s' : σ} : L.Says seen s [] s' ↔ s' = s := by
  have hnone : ∀ key : String, ∀ m ∈ ([] : List (String × Bytes)), m.1 ≠ key := by simp
  refine ⟨fun h => L.ext fun i => (fieldText_of_absent (hnone _)).mp (h.fields i), ?_⟩
  rintro rfl
  exact ⟨by simp [Others], fun i => .absent (hnone _), fun i _ => hnone _⟩

/-- A member of a field sets it, and is the only one that does. -/
theorem says_cons_field_iff {seen : List String} {s s' : σ} {members : List (String × Bytes)}
    {i : L.Index} {text : Bytes} :
    L.Says seen s ((L.key i, text) :: members) s' ↔ L.key i ∉ seen ∧
      ∃ v, L.Spells i v text ∧ L.Says (L.key i :: seen) (L.set i v s) members s' := by
  refine ⟨fun h => ?_, ?_⟩
  · rcases fieldText_cons_self.mp (h.fields i) with ⟨hs, hrest⟩
    -- the value the field has in the end is the one set here, as no other member sets it
    refine ⟨fun hi => h.unseen i hi _ List.mem_cons_self rfl, L.get i s', hs, ?_, ?_, ?_⟩
    · exact fun m hm => h.others m (List.mem_cons_of_mem _ hm)
    · intro j
      by_cases hij : j = i
      · subst hij
        rw [fieldText_of_absent hrest, L.get_set]
      · rw [L.get_set_of_ne hij]
        exact (fieldText_cons_of_ne fun hk => hij (L.key_injective hk).symm).mp (h.fields j)
    · intro j hj m hm
      rcases List.mem_cons.mp hj with hj | hj
      · rw [hj]
        exact hrest m hm
      · exact h.unseen j hj m (List.mem_cons_of_mem _ hm)
  · rintro ⟨hnew, v, hs, h⟩
    have hrest : ∀ m ∈ members, m.1 ≠ L.key i := h.unseen i List.mem_cons_self
    have hv : L.get i s' = v := ((fieldText_of_absent hrest).mp (h.fields i)).trans L.get_set
    refine ⟨fun m hm hk => ?_, fun j => ?_, fun j hj m hm => ?_⟩
    · rcases List.mem_cons.mp hm with rfl | hm
      · exact absurd ⟨i, rfl⟩ hk
      · exact h.others m hm hk
    · by_cases hij : j = i
      · subst hij
        rw [fieldText_cons_self, hv]
        exact ⟨hs, hrest⟩
      · have hj := h.fields j
        rw [L.get_set_of_ne hij] at hj
        exact (fieldText_cons_of_ne fun hk => hij (L.key_injective hk).symm).mpr hj
    · rcases List.mem_cons.mp hm with rfl | hm
      · intro hk
        rw [← hk] at hj
        exact hnew hj
      · exact h.unseen j (List.mem_cons_of_mem _ hj) m hm

/-- A member of no field changes nothing. -/
theorem says_cons_other_iff {seen : List String} {s s' : σ} {members : List (String × Bytes)}
    {key : String} {text : Bytes} (hk : ¬ L.Known key) :
    L.Says seen s ((key, text) :: members) s' ↔ Value text ∧ L.Says seen s members s' := by
  have hne : ∀ i, (key, text).1 ≠ L.key i := fun i h => hk ⟨i, h.symm⟩
  refine ⟨fun h => ⟨h.others _ List.mem_cons_self hk, ?_, ?_, ?_⟩, ?_⟩
  · exact fun m hm => h.others m (List.mem_cons_of_mem _ hm)
  · exact fun i => (fieldText_cons_of_ne (hne i)).mp (h.fields i)
  · exact fun i hi m hm => h.unseen i hi m (List.mem_cons_of_mem _ hm)
  · rintro ⟨hvalue, h⟩
    refine ⟨fun m hm hkm => ?_, fun i => ?_, fun i hi m hm => ?_⟩
    · rcases List.mem_cons.mp hm with rfl | hm
      · exact hvalue
      · exact h.others m hm hkm
    · exact (fieldText_cons_of_ne (hne i)).mpr (h.fields i)
    · rcases List.mem_cons.mp hm with rfl | hm
      · exact hne i
      · exact h.unseen i hi m hm

/-- Going through the members one by one gives each field what they say of it. -/
theorem collects_iff {seen : List String} {s s' : σ} {members : List (String × Bytes)} :
    L.Collects seen s members s' ↔ L.Says seen s members s' := by
  induction members generalizing seen s with
  | nil =>
    rw [says_nil_iff]
    refine ⟨fun h => ?_, ?_⟩
    · cases h
      rfl
    · rintro rfl
      exact .nil
  | cons m members ih =>
    rcases m with ⟨key, text⟩
    refine ⟨fun h => ?_, fun h => ?_⟩
    · cases h with
      | cons ht hc =>
        cases ht with
        | field hnew hs => exact L.says_cons_field_iff.mpr ⟨hnew, _, hs, ih.mp hc⟩
        | other hk hv => exact (L.says_cons_other_iff hk).mpr ⟨hv, ih.mp hc⟩
    · by_cases hk : L.Known key
      · rcases hk with ⟨i, rfl⟩
        rcases L.says_cons_field_iff.mp h with ⟨hnew, v, hs, hc⟩
        exact .cons (.field hnew hs) (ih.mpr hc)
      · rcases (L.says_cons_other_iff hk).mp h with ⟨hv, hc⟩
        exact .cons (.other hk hv) (ih.mpr hc)

/-! ### Reading an object -/

theorem find?_field (i : L.Index) : r.fields.find? (·.key == L.key i) = some (L.field i) := by
  have hsome : (r.fields.find? (·.key == L.key i)).isSome := by
    rw [L.fields_eq, List.find?_isSome]
    exact ⟨L.field i, List.mem_map_of_mem (L.mem_order i), beq_self_eq_true _⟩
  rcases Option.isSome_iff_exists.mp hsome with ⟨f, hf⟩
  have hkey := List.find?_some hf
  have hmem := List.mem_of_find?_eq_some hf
  rw [L.fields_eq] at hmem
  rcases List.mem_map.mp hmem with ⟨j, -, rfl⟩
  obtain rfl := L.key_injective (eq_of_beq hkey)
  exact hf

theorem find?_other {key : String} (h : ¬ L.Known key) :
    r.fields.find? (·.key == key) = none := by
  rw [L.fields_eq, List.find?_eq_none]
  intro f hf
  rcases List.mem_map.mp hf with ⟨i, -, rfl⟩
  intro hk
  exact h ⟨i, eq_of_beq hk⟩

/-- A member that is read does what it does. -/
theorem takes_of_readMember {e : Ending} {seen seen' : List String} {s s' : σ} {bytes rest : Bytes}
    (h : r.readMember e seen s bytes = .ok ((seen', s'), rest)) :
    ∃ m text, Member m (quote :: text) ∧ L.Takes seen s m seen' s' ∧ bytes = text ++ rest := by
  rcases bind_eq_ok.mp h with ⟨⟨key, rest₁⟩, h₁, h₂⟩
  rcases readText_eq_ok_iff.mp h₁ with ⟨body, hbody, rfl⟩
  by_cases hk : L.Known key
  · rcases hk with ⟨i, rfl⟩
    simp only [L.find?_field] at h₂
    rcases bind_eq_ok.mp h₂ with ⟨⟨s₁, rest₂⟩, h₃, h₄⟩
    cases h₄
    rw [Record.readField] at h₃
    split at h₃
    · cases h₃
    · rename_i hnew
      rcases bind_eq_ok.mp h₃ with ⟨rest₃, h₅, h₆⟩
      rcases bind_eq_ok.mp h₆ with ⟨⟨put, rest₄⟩, h₇, h₈⟩
      cases h₈
      rcases readColon_eq_ok_iff.mp h₅ with ⟨before, hbefore, rfl⟩
      rcases ((L.reads i).map (L.set i)).read_iff.mp h₇ with ⟨after, text, hafter, ⟨v, hv, rfl⟩, rfl⟩
      refine ⟨_, _, .colon (.quoted hbody) hbefore hafter, .field ?_ hv, ?_⟩
      · intro hi
        exact hnew (List.contains_iff_mem.mpr hi)
      · simp
  · simp only [L.find?_other hk] at h₂
    rcases bind_eq_ok.mp h₂ with ⟨rest₂, h₃, h₄⟩
    cases h₄
    rcases bind_eq_ok.mp h₃ with ⟨rest₃, h₅, h₆⟩
    rcases readColon_eq_ok_iff.mp h₅ with ⟨before, hbefore, rfl⟩
    rcases exists_value_of_skipValue h₆ with ⟨after, text, hafter, ht, rfl⟩
    exact ⟨_, _, .colon (.quoted hbody) hbefore hafter, .other hk ht, by simp⟩

/-- A member is read, if nothing follows that could be more of it. -/
theorem readMember_of_takes {e : Ending} {seen seen' : List String} {s s' : σ}
    {m : String × Bytes} {text rest : Bytes} (hm : Member m (quote :: text))
    (ht : L.Takes seen s m seen' s') (hr : Ends e rest) :
    r.readMember e seen s (text ++ rest) = .ok ((seen', s'), rest) := by
  rcases m with ⟨key, mtext⟩
  generalize hq : quote :: text = whole at hm
  cases hm with
  | @colon _ literal before after _ hl hbefore hafter =>
    cases hl with
    | @quoted body hbody =>
      have htext : text = body ++ quote :: (before ++ colon :: (after ++ mtext)) := by
        simpa using (List.cons.inj hq).2
      have hkey : readText e (text ++ rest) =
          .ok (key, before ++ colon :: (after ++ mtext ++ rest)) :=
        readText_eq_ok_iff.mpr ⟨body, hbody, by rw [htext]; simp⟩
      have hcolon : readColon e (before ++ colon :: (after ++ mtext ++ rest)) =
          .ok (after ++ mtext ++ rest) :=
        readColon_eq_ok_iff.mpr ⟨before, hbefore, rfl⟩
      refine bind_eq_ok.mpr ⟨_, hkey, ?_⟩
      cases ht with
      | @field i v _ hnew hv =>
        have hread : ((L.reader i).map (L.set i)).read e (after ++ mtext ++ rest) =
            .ok (L.set i v, rest) :=
          ((L.reads i).map (L.set i)).read_iff.mpr ⟨after, mtext, hafter, ⟨v, hv, rfl⟩, rfl⟩
        simp only [L.find?_field]
        refine bind_eq_ok.mpr ⟨(L.set i v s, rest), ?_, rfl⟩
        have hseen : ¬ seen.contains (L.field i).key = true :=
          fun h => hnew (List.contains_iff_mem.mp h)
        rw [Record.readField, if_neg hseen]
        exact bind_eq_ok.mpr ⟨_, hcolon, bind_eq_ok.mpr ⟨_, hread, rfl⟩⟩
      | other hk hv =>
        simp only [L.find?_other hk]
        refine bind_eq_ok.mpr ⟨rest, ?_, rfl⟩
        exact bind_eq_ok.mpr ⟨_, hcolon, skipValue_of_value hafter hv hr⟩

end Layout

/-! ### From member to member -/

theorem nextKey_after_iff {e : Ending} {first : Bool} {bytes rest : Bytes} :
    Record.nextKey e first bytes = .ok (.after, rest) ↔
      ∃ gap rest', Blanks gap ∧ rest = closeBrace :: rest' ∧ bytes = gap ++ closeBrace :: rest' := by
  refine ⟨fun h => ?_, ?_⟩
  · rw [Record.nextKey] at h
    split at h
    · cases h
    · rename_i b tail hb
      rcases skipBlanks_eq_cons_iff.mp hb with ⟨-, gap, hg, rfl⟩
      split at h
      · rename_i hc
        cases h
        obtain rfl := eq_of_beq hc
        exact ⟨gap, tail, hg, rfl, rfl⟩
      · split at h
        · split at h <;> cases h
        · split at h
          · split at h
            · cases h
            · split at h
              · cases h
              · split at h <;> cases h
          · cases h
  · rintro ⟨gap, rest', hg, rfl, rfl⟩
    simp [Record.nextKey, skipBlanks_gap hg (show isBlank closeBrace = false from rfl)]

theorem nextKey_value_iff {e : Ending} {first : Bool} {bytes rest : Bytes} :
    Record.nextKey e first bytes = .ok (.value, rest) ↔
      ∃ separator, Separator first separator ∧ bytes = separator ++ quote :: rest := by
  refine ⟨fun h => ?_, ?_⟩
  · rw [Record.nextKey] at h
    split at h
    · cases h
    · rename_i b tail hb
      rcases skipBlanks_eq_cons_iff.mp hb with ⟨-, gap, hg, rfl⟩
      split at h
      · cases h
      · split at h
        · rename_i hfirst
          subst hfirst
          split at h
          · rename_i hq
            cases h
            exact ⟨gap, .first hg, by rw [eq_of_beq hq]⟩
          · cases h
        · rename_i hfirst
          rw [Bool.not_eq_true] at hfirst
          subst hfirst
          split at h
          · rename_i hcomma
            obtain rfl := eq_of_beq hcomma
            split at h
            · cases h
            · rename_i c more hmore
              rcases skipBlanks_eq_cons_iff.mp hmore with ⟨-, gap', hg', rfl⟩
              split at h
              · rename_i hq
                cases h
                exact ⟨_, .next hg hg', by rw [eq_of_beq hq]; simp⟩
              · split at h <;> cases h
          · cases h
  · rintro ⟨separator, hs, rfl⟩
    cases hs with
    | first hg =>
      simp [Record.nextKey, skipBlanks_gap hg (show isBlank quote = false from rfl),
        show (quote == closeBrace) = false from rfl]
    | next hg hg' =>
      rw [List.append_assoc, List.cons_append, Record.nextKey, skipBlanks_gap hg rfl]
      simp [skipBlanks_gap hg' (show isBlank quote = false from rfl),
        show (comma == closeBrace) = false from rfl]

theorem Member.exists_cons {m : String × Bytes} {text : Bytes} (h : Member m text) :
    ∃ more, text = quote :: more := by
  cases h with
  | colon hl =>
    cases hl
    exact ⟨_, rfl⟩

/-- What is made of the members of an object, where it has to end. -/
def Record.closeMembers {σ α : Type} (r : Record σ α) (e : Ending) (read : σ × Bytes) :
    Except Fault (α × Bytes) :=
  match r.build read.1 with
  | .ok v => do
    let rest ← closeObject e read.2
    .ok (v, rest)
  | .error field => .error (faultAtEnd closeBrace (.missingField field) read.2)

/-- What is made of the elements of a list, where it has to end. -/
def Record.closeFields {σ α : Type} (r : Record σ α) (e : Ending) (read : σ × Bytes) :
    Except Fault (α × Bytes) :=
  match r.build read.1 with
  | .ok v => do
    let rest ← closeList e read.2
    .ok (v, rest)
  | .error field => .error (faultAtEnd closeBracket (.missingField field) read.2)

theorem closeObject_closeBrace (e : Ending) (rest : Bytes) :
    Record.closeObject e (closeBrace :: rest) = .ok rest := by
  rw [Record.closeObject, skipBlanks_of_not_blank rfl]
  rfl

namespace Layout

variable {σ α : Type} {r : Record σ α} (L : Layout r)

theorem readMembers_of_items {e : Ending} {first : Bool} {seen : List String} {s s' : σ}
    {members : List (String × Bytes)} {text : Bytes} (hi : Items Member closeBrace first members text)
    (hc : L.Collects seen s members s') (rest : Bytes) :
    r.readMembers e first seen s (text ++ rest) = .ok (s', closeBrace :: rest) := by
  induction members generalizing first seen s text with
  | nil =>
    cases hi with
    | @close _ gap hg =>
      have hn : Record.nextKey e first (gap ++ [closeBrace] ++ rest) =
          .ok (.after, closeBrace :: rest) :=
        nextKey_after_iff.mpr ⟨gap, rest, hg, rfl, by simp⟩
      cases hc
      rw [Record.readMembers]
      split <;> (rename_i hk; rw [hn] at hk; cases hk)
      rfl
  | cons m members ih =>
    cases hi with
    | @item _ _ _ separator mtext more hs hm hmore =>
      cases hc with
      | @cons _ seen' _ s₁ _ _ _ ht hc =>
        rcases hm.exists_cons with ⟨mtext, rfl⟩
        have hn : Record.nextKey e first (separator ++ (quote :: mtext) ++ more ++ rest) =
            .ok (.value, mtext ++ (more ++ rest)) :=
          nextKey_value_iff.mpr ⟨separator, hs, by simp⟩
        have hread : r.readMember e seen s (mtext ++ (more ++ rest)) =
            .ok ((seen', s₁), more ++ rest) :=
          L.readMember_of_takes hm ht (hmore.ends (.inr rfl) rest)
        rw [Record.readMembers]
        split <;> (rename_i hk; rw [hn] at hk; cases hk)
        split <;> (rename_i hk; rw [hread] at hk; cases hk)
        exact ih hmore hc

theorem items_of_readMembers {e : Ending} {first : Bool} {seen : List String} {s s' : σ}
    {bytes rest : Bytes} (h : r.readMembers e first seen s bytes = .ok (s', rest)) :
    ∃ members text rest', Items Member closeBrace first members text ∧
      L.Collects seen s members s' ∧ rest = closeBrace :: rest' ∧ bytes = text ++ rest' := by
  fun_induction Record.readMembers r e first seen s bytes with
  | case1 | case3 => cases h
  | case2 first seen s bytes rest₁ hk =>
    cases h
    rcases nextKey_after_iff.mp hk with ⟨gap, rest', hg, rfl, rfl⟩
    exact ⟨[], _, rest', .close hg, .nil, rfl, by simp⟩
  | case4 first seen s bytes rest₁ hk seen' s₁ rest₂ hm ih =>
    rcases nextKey_value_iff.mp hk with ⟨separator, hs, rfl⟩
    rcases L.takes_of_readMember hm with ⟨m, text, hmember, ht, rfl⟩
    rcases ih h with ⟨members, more, rest', hi, hc, rfl, rfl⟩
    exact ⟨m :: members, _, rest', .item hs hmember hi, .cons ht hc, rfl, by simp⟩

/-- What is read up to the closing brace is what the members up to there say. -/
theorem readMembers_closeMembers_iff {e : Ending} {first : Bool} {seen : List String} {s : σ}
    {bytes rest : Bytes} {v : α} :
    r.readMembers e first seen s bytes >>= r.closeMembers e = .ok (v, rest) ↔
      ∃ members text s', Items Member closeBrace first members text ∧ L.Says seen s members s' ∧
        r.build s' = .ok v ∧ bytes = text ++ rest := by
  refine ⟨fun h => ?_, ?_⟩
  · rcases bind_eq_ok.mp h with ⟨⟨s', rest₁⟩, h₁, h₂⟩
    rcases L.items_of_readMembers h₁ with ⟨members, text, rest', hi, hc, rfl, rfl⟩
    rw [Record.closeMembers] at h₂
    split at h₂
    · rename_i v' hb
      rcases bind_eq_ok.mp h₂ with ⟨rest₂, h₃, h₄⟩
      cases h₄
      rw [closeObject_closeBrace] at h₃
      cases h₃
      exact ⟨members, text, s', hi, L.collects_iff.mp hc, hb, rfl⟩
    · cases h₂
  · rintro ⟨members, text, s', hi, hs, hb, rfl⟩
    refine bind_eq_ok.mpr ⟨_, L.readMembers_of_items hi (L.collects_iff.mpr hs) rest, ?_⟩
    simp only [Record.closeMembers, hb]
    exact bind_eq_ok.mpr ⟨rest, closeObject_closeBrace e rest, rfl⟩

/-- What is read between braces is what the members there say. -/
theorem readObject_eq_ok_iff {e : Ending} {bytes rest : Bytes} {v : α} :
    r.readObject e bytes = .ok (v, rest) ↔ ∃ members text s, Items Member closeBrace true members text ∧
      L.Says [] r.start members s ∧ r.build s = .ok v ∧ bytes = text ++ rest :=
  L.readMembers_closeMembers_iff

/-! ### Reading a list -/

/-- What elements do to what was read so far, each for its own field. -/
inductive Positional : List L.Index → σ → List Bytes → σ → Prop where
  | nil {s : σ} : Positional [] s [] s
  | cons {i : L.Index} {is : List L.Index} {s s' : σ} {v : L.Part i} {text : Bytes}
      {texts : List Bytes} : L.Spells i v text → Positional is (L.set i v s) texts s' →
      Positional (i :: is) s (text :: texts) s'

/-- Each field has the value that its element spells, and the others are as before. -/
theorem positional_iff {is : List L.Index} (hn : is.Nodup) {s s' : σ} {texts : List Bytes} :
    L.Positional is s texts s' ↔ is.Forall₂ (fun i text => L.Spells i (L.get i s') text) texts ∧
      ∀ i, i ∉ is → L.get i s' = L.get i s := by
  induction is generalizing s texts with
  | nil =>
    refine ⟨fun h => ?_, ?_⟩
    · cases h
      exact ⟨.nil, fun _ _ => rfl⟩
    · rintro ⟨h, hs⟩
      cases h
      have heq : s' = s := L.ext fun i => hs i (List.not_mem_nil)
      rw [heq]
      exact .nil
  | cons i is ih =>
    rcases List.nodup_cons.mp hn with ⟨hi, hn⟩
    refine ⟨fun h => ?_, ?_⟩
    · cases h with
      | cons hv hp =>
        -- the fields are distinct, so those that follow leave this one as it is
        rcases (ih hn).mp hp with ⟨hall, hs⟩
        have hget := (hs i hi).trans L.get_set
        refine ⟨.cons (hget ▸ hv) hall, fun j hj => ?_⟩
        rw [List.mem_cons, not_or] at hj
        rw [hs j hj.2, L.get_set_of_ne hj.1]
    · rintro ⟨hall, hs⟩
      cases hall with
      | cons hv hall =>
        refine .cons hv ((ih hn).mpr ⟨hall, fun j hj => ?_⟩)
        by_cases hij : j = i
        · subst hij
          rw [L.get_set]
        · rw [L.get_set_of_ne hij]
          exact hs j (by simp [hij, hj])

/-- The texts of elements, as they stand. -/
abbrev Verbatim : Bool → List Bytes → Bytes → Prop :=
  Items (· = ·) closeBracket

/-- The next field is read from the next element. -/
theorem readFields_cons_eq_ok_iff {e : Ending} {index : Nat} {i : L.Index} {is : List L.Index}
    {s : σ} {bytes : Bytes} {result : σ × Bytes} :
    r.readFields e index ((i :: is).map L.field) s bytes = .ok result ↔ ∃ separator text v rest,
      Separator (index == 0) separator ∧ L.Spells i v text ∧ bytes = separator ++ text ++ rest ∧
        r.readFields e (index + 1) (is.map L.field) (L.set i v s) rest = .ok result := by
  rw [List.map_cons, Record.readFields]
  refine ⟨fun h => ?_, ?_⟩
  · rcases bind_eq_ok.mp h with ⟨⟨stage, rest₁⟩, h₁, h₂⟩
    cases stage with
    | after => cases h₂
    | value =>
      rcases nextElement_value_iff.mp h₁ with ⟨separator, b, tail, hs, rfl, hb, -, rfl⟩
      rcases bind_eq_ok.mp h₂ with ⟨⟨put, rest⟩, h₃, h₄⟩
      rcases ((L.reads i).map (L.set i)).read_iff.mp h₃ with ⟨gap, text, hg, ⟨v, hv, rfl⟩, heq⟩
      -- the blanks have been skipped, so none are left in front of the value
      obtain rfl := hg.eq_nil hb (heq.trans (List.append_assoc ..))
      refine ⟨separator, text, v, rest, hs, hv, ?_, h₄⟩
      rw [heq]
      simp
  · rintro ⟨separator, text, v, rest, hs, hv, rfl, h⟩
    rcases (L.reads i).starts hv with ⟨b, more, rfl, hb, hc⟩
    have hn : nextElement e (index == 0) (separator ++ (b :: more) ++ rest) =
        .ok (.value, b :: more ++ rest) :=
      nextElement_value_iff.mpr ⟨separator, b, more ++ rest, hs, rfl, hb, hc, by simp⟩
    have hread : ((L.reader i).map (L.set i)).read e (b :: more ++ rest) = .ok (L.set i v, rest) :=
      ((L.reads i).map (L.set i)).read_iff.mpr ⟨[], _, blanks_nil, ⟨v, hv, rfl⟩, rfl⟩
    exact bind_eq_ok.mpr ⟨_, hn, bind_eq_ok.mpr ⟨_, hread, h⟩⟩

/-- What is read between brackets are the elements there, one for each field. -/
theorem readFields_closeList_iff {e : Ending} {index : Nat} {is : List L.Index} {s s' : σ}
    {bytes rest : Bytes} :
    (∃ rest', r.readFields e index (is.map L.field) s bytes = .ok (s', rest') ∧
        closeList e rest' = .ok rest) ↔
      ∃ texts text, Verbatim (index == 0) texts text ∧ L.Positional is s texts s' ∧
        bytes = text ++ rest := by
  induction is generalizing index s bytes with
  | nil =>
    refine ⟨?_, ?_⟩
    · rintro ⟨rest', h, hc⟩
      cases h
      rcases closeList_eq_ok_iff.mp hc with ⟨gap, hg, rfl⟩
      exact ⟨[], _, .close hg, .nil, by simp⟩
    · rintro ⟨texts, text, hv, hp, rfl⟩
      cases hp
      cases hv with
      | close hg => exact ⟨_, rfl, closeList_eq_ok_iff.mpr ⟨_, hg, by simp⟩⟩
  | cons i is ih =>
    refine ⟨?_, ?_⟩
    · rintro ⟨rest', h, hc⟩
      rcases L.readFields_cons_eq_ok_iff.mp h with ⟨separator, text, v, rest₁, hs, hv, rfl, h₁⟩
      rcases ih.mp ⟨rest', h₁, hc⟩ with ⟨texts, more, hm, hp, rfl⟩
      exact ⟨text :: texts, _, .item hs rfl hm, .cons hv hp, by simp⟩
    · rintro ⟨texts, text, hv, hp, rfl⟩
      cases hp with
      | cons hs hp =>
        cases hv with
        | @item _ _ _ separator _ more hsep ht hm =>
          subst ht
          have hm' : Verbatim (index + 1 == 0) _ more := hm
          rcases ih.mpr ⟨_, more, hm', hp, rfl⟩ with ⟨rest', h, hc⟩
          refine ⟨rest', L.readFields_cons_eq_ok_iff.mpr ⟨separator, _, _, _, hsep, hs, ?_, h⟩, hc⟩
          simp

/-- What is read up to the closing bracket are the elements up to there. -/
theorem readFields_closeFields_iff {e : Ending} {index : Nat} {is : List L.Index} {s : σ}
    {bytes rest : Bytes} {v : α} :
    r.readFields e index (is.map L.field) s bytes >>= r.closeFields e = .ok (v, rest) ↔
      ∃ texts text s', Verbatim (index == 0) texts text ∧ L.Positional is s texts s' ∧
        r.build s' = .ok v ∧ bytes = text ++ rest := by
  refine ⟨fun h => ?_, ?_⟩
  · rcases bind_eq_ok.mp h with ⟨⟨s', rest₁⟩, h₁, h₂⟩
    rw [Record.closeFields] at h₂
    split at h₂
    · rename_i v' hb
      rcases bind_eq_ok.mp h₂ with ⟨rest₂, h₃, h₄⟩
      cases h₄
      rcases L.readFields_closeList_iff.mp ⟨_, h₁, h₃⟩ with ⟨texts, text, hv, hp, rfl⟩
      exact ⟨texts, text, s', hv, hp, hb, rfl⟩
    · cases h₂
  · rintro ⟨texts, text, s', hv, hp, hb, rfl⟩
    rcases L.readFields_closeList_iff.mpr ⟨texts, text, hv, hp, rfl⟩ with ⟨rest', h, hc⟩
    refine bind_eq_ok.mpr ⟨_, h, ?_⟩
    simp only [Record.closeFields, hb]
    exact bind_eq_ok.mpr ⟨rest, hc, rfl⟩

/-- What is read between brackets gives each field the value of its element. -/
theorem readList_eq_ok_iff {e : Ending} {bytes rest : Bytes} {v : α} :
    r.readList e bytes = .ok (v, rest) ↔ ∃ texts text s, Verbatim true texts text ∧
      L.order.Forall₂ (fun i text => L.Spells i (L.get i s) text) texts ∧ r.build s = .ok v ∧
        bytes = text ++ rest := by
  have hfields : r.fields = L.order.map L.field := L.fields_eq
  have hpos : ∀ {texts : List Bytes} {s : σ}, L.Positional L.order r.start texts s ↔
      L.order.Forall₂ (fun i text => L.Spells i (L.get i s) text) texts := by
    intro texts s
    rw [L.positional_iff L.nodup_order]
    exact and_iff_left fun i hi => absurd (L.mem_order i) hi
  show r.readFields e 0 r.fields r.start bytes >>= r.closeFields e = .ok (v, rest) ↔ _
  rw [hfields, L.readFields_closeFields_iff]
  simp only [hpos]
  rfl

/-! ### The reader -/

/-- The texts that give the fields their values, as an object or as a list. -/
inductive Filled (s : σ) : Bytes → Prop where
  | object {members : List (String × Bytes)} {text : Bytes} : ObjectText members text →
      Others L.Known members →
      (∀ i, FieldText (L.key i) (L.Spells i) (L.get i r.start) members (L.get i s)) → Filled s text
  | list {texts : List Bytes} {text : Bytes} : ListText (· = ·) texts text →
      L.order.Forall₂ (fun i text => L.Spells i (L.get i s) text) texts → Filled s text

/-- A record is read from what fills its fields, if that is enough to build it. -/
theorem record_reads : r.reader.Reads fun v text => ∃ s, L.Filled s text ∧ r.build s = .ok v := by
  refine Reader.reads_of_readValue (fun _ _ => rfl) ?_ ?_
  · intro e b tail v rest _
    refine ⟨fun h => ?_, ?_⟩
    · split at h
      · rename_i hb
        obtain rfl := eq_of_beq hb
        rcases L.readList_eq_ok_iff.mp h with ⟨texts, text, s, hv, hall, hs, rfl⟩
        exact ⟨text, ⟨s, .list (enclosed_iff.mpr ⟨text, hv, rfl⟩) hall, hs⟩, rfl⟩
      · split at h
        · rename_i hb
          obtain rfl := eq_of_beq hb
          rcases L.readObject_eq_ok_iff.mp h with ⟨members, text, s, hi, hsays, hs, rfl⟩
          exact ⟨text, ⟨s, .object (enclosed_iff.mpr ⟨text, hi, rfl⟩) hsays.others hsays.fields, hs⟩,
            rfl⟩
        · cases h
    · rintro ⟨text, ⟨s, hf, hs⟩, rfl⟩
      generalize hw : b :: text = whole at hf
      cases hf with
      | @object members _ ho hothers hfields =>
        rcases enclosed_iff.mp ho with ⟨inside, hi, rfl⟩
        obtain ⟨rfl, rfl⟩ := List.cons.inj hw
        have hsays : L.Says [] r.start members s :=
          ⟨hothers, hfields, fun i hi => absurd hi List.not_mem_nil⟩
        exact L.readObject_eq_ok_iff.mpr ⟨members, text, s, hi, hsays, hs, rfl⟩
      | @list texts _ hl hall =>
        rcases enclosed_iff.mp hl with ⟨inside, hi, rfl⟩
        obtain ⟨rfl, rfl⟩ := List.cons.inj hw
        exact L.readList_eq_ok_iff.mpr ⟨texts, text, s, hi, hall, hs, rfl⟩
  · rintro v text ⟨s, hf, -⟩
    cases hf with
    | object ho =>
      rcases enclosed_iff.mp ho with ⟨inside, -, rfl⟩
      exact ⟨openBrace, inside, rfl, rfl, by decide⟩
    | list hl =>
      rcases enclosed_iff.mp hl with ⟨inside, -, rfl⟩
      exact ⟨openBracket, inside, rfl, rfl, by decide⟩

end Layout

end BuildFleet.Json
