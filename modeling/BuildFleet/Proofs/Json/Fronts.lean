import BuildFleet.Proofs.Json.Literals
import BuildFleet.Proofs.Json.Records

/-!
# JSON — where strings are read

A reader that has taken the front of a text may have come to a string: the next quote opens a literal
that is read, and not only passed over.  What it makes of the text is then a matter of that string and
of what follows the literal (`Reader.TextBehind`).  So literals of one string are the same to it, and one
that is none leaves it without a value.  Where the string is the value of a field, any other would do as
well; where it is a key, this is not so.

* `string_textBehind`: a string is such a reader from the start.
* `Layout.Before`, `Layout.BeforeKey`: the fronts of a record behind which a field or a key is read.
* `Layout.Says.set`, `Layout.Positional.set`: what follows a field is read in the same way whatever the
  field holds, so its value can be exchanged if the record can be built from any (`Layout.Exchanges`).
* `Layout.Before.textBehind`, `Reader.list_textBehind`: behind a front of a record or a list, and then one
  of the field or the element there, the record or the list comes to a string.
* `Reader.TextBehind.exists_parse`: what becomes of a whole input, given the string behind its front.
* `Layout.Filled.exists_before`, `Enclosed.exists_begun`: whatever has been read stands behind some front.
-/

namespace BuildFleet.Json

variable {α β : Type}

/-- The first items of a list or an object, up to where the next one begins. -/
inductive Begun (Spells : β → Bytes → Prop) : Bool → List β → Bytes → Prop where
  | next {first : Bool} {separator : Bytes} : Separator first separator → Begun Spells first [] separator
  | item {first : Bool} {v : β} {vs : List β} {separator text more : Bytes} :
      Separator first separator → Spells v text → Begun Spells false vs more →
      Begun Spells first (v :: vs) (separator ++ text ++ more)

/-- The bytes begin with one that is no blank, and neither ends a list nor begins `null`. -/
def Starts (bytes : Bytes) : Prop :=
  ∃ b tail, bytes = b :: tail ∧ isBlank b = false ∧ b ≠ closeBracket ∧ b ≠ letterN

/-- Behind `front` the reader comes to a string, which can be seen in the value.  With another one like it,
there would be a value as well. -/
structure Reader.TextBehind (r : Reader α) (front : Bytes) (Alike : String → String → Prop)
    (Shows : String → α → Prop) : Prop where
  starts : ∀ rest, Starts (front ++ quote :: rest)
  reads : ∃ next : Ending → String × Bytes → Except Fault (α × Bytes),
    (∀ e rest, r.read e (front ++ quote :: rest) = readText e rest >>= next e) ∧
      ∀ {e s rest v rest'}, next e (s, rest) = .ok (v, rest') →
        Shows s v ∧ ∀ s', Alike s s' → ∃ v', next e (s', rest) = .ok (v', rest')

/-- Blanks in front make no difference. -/
def Reader.PassesBlanks (r : Reader α) : Prop :=
  ∀ {gap : Bytes}, Blanks gap → ∀ e bytes, r.read e (gap ++ bytes) = r.read e bytes

/-! ### Blanks -/

theorem readValue_gap {gap : Bytes} (hg : Blanks gap) (e : Ending) (bytes : Bytes)
    (read : UInt8 → Bytes → Except Fault (α × Bytes)) :
    readValue e (gap ++ bytes) read = readValue e bytes read := by
  rw [readValue, readValue, skipBlanks_append hg]

theorem readValue_cons {b : UInt8} (hb : isBlank b = false) (e : Ending) (rest : Bytes)
    (read : UInt8 → Bytes → Except Fault (α × Bytes)) : readValue e (b :: rest) read = read b rest := by
  rw [readValue, skipBlanks_of_not_blank hb]

namespace Reader

variable {r : Reader α}

theorem string_passesBlanks : string.PassesBlanks :=
  fun hg e bytes => readValue_gap hg e bytes _

theorem optional_passesBlanks (r : Reader α) : r.optional.PassesBlanks := by
  intro gap hg e bytes
  dsimp only [optional]
  rw [skipBlanks_append hg]

theorem PassesBlanks.map (h : r.PassesBlanks) (f : α → β) : (r.map f).PassesBlanks := by
  intro gap hg e bytes
  dsimp only [Reader.map]
  rw [h hg]

/-! ### From reader to reader -/

theorem starts_quote (rest : Bytes) : Starts (quote :: rest) :=
  ⟨quote, rest, rfl, rfl, by decide, by decide⟩

theorem string_textBehind {Alike : String → String → Prop} :
    string.TextBehind [] Alike fun s v => v = s where
  starts := starts_quote
  reads := by
    refine ⟨fun _ => .ok, fun e rest => ?_, ?_⟩
    · dsimp only [string, List.nil_append]
      rw [readValue_cons rfl]
      exact (bind_pure (readText e rest)).symm
    · rintro e s rest v rest' h
      cases h
      exact ⟨rfl, fun s' _ => ⟨s', rfl⟩⟩

variable {front front' : Bytes} {Alike : String → String → Prop}

/-- A reader that reads with another one first comes to the string that this one comes to. -/
theorem TextBehind.bind {q : Reader β} {Shown : String → β → Prop} {Shows : String → α → Prop}
    (h : q.TextBehind front' Alike Shown) (hstarts : ∀ rest, Starts (front ++ quote :: rest))
    (next : Ending → β × Bytes → Except Fault (α × Bytes))
    (hread : ∀ e rest, r.read e (front ++ quote :: rest) = q.read e (front' ++ quote :: rest) >>= next e)
    (hnext : ∀ {e w rest v rest' s}, next e (w, rest) = .ok (v, rest') → Shown s w →
      Shows s v ∧ ∀ s' w', Shown s' w' → ∃ v', next e (w', rest) = .ok (v', rest')) :
    r.TextBehind front Alike Shows where
  starts := hstarts
  reads := by
    obtain ⟨step, hstep, hshown⟩ := h.reads
    refine ⟨fun e read => step e read >>= next e, fun e rest => ?_, ?_⟩
    · rw [hread, hstep, bind_assoc]
    · intro e s rest v rest' hv
      obtain ⟨⟨w, rest₁⟩, hw, hv⟩ := bind_eq_ok.mp hv
      obtain ⟨hs, hlike⟩ := hshown hw
      obtain ⟨hshows, hany⟩ := hnext hv hs
      refine ⟨hshows, fun s' hs' => ?_⟩
      obtain ⟨w', hw'⟩ := hlike s' hs'
      obtain ⟨v', hv'⟩ := hany s' w' (hshown hw').1
      exact ⟨v', bind_eq_ok.mpr ⟨_, hw', hv'⟩⟩

theorem TextBehind.imp {Shown Shows : String → α → Prop} (h : r.TextBehind front Alike Shown)
    (himp : ∀ {s v}, Shown s v → Shows s v) : r.TextBehind front Alike Shows where
  starts := h.starts
  reads := by
    obtain ⟨next, hread, hshown⟩ := h.reads
    exact ⟨next, hread, fun hnext => (hshown hnext).imp_left himp⟩

theorem TextBehind.map {Shown : String → α → Prop} (h : r.TextBehind front Alike Shown) (f : α → β) :
    (r.map f).TextBehind front Alike fun s w => ∃ v, Shown s v ∧ f v = w := by
  refine h.bind h.starts (fun _ read => .ok (f read.1, read.2)) (fun _ _ => rfl) ?_
  rintro e v rest w rest' s hw hv
  cases hw
  exact ⟨⟨v, hv, rfl⟩, fun _ v' _ => ⟨f v', rfl⟩⟩

theorem TextBehind.optional {Shown : String → α → Prop} (h : r.TextBehind front Alike Shown) :
    r.optional.TextBehind front Alike fun s w => ∃ v, Shown s v ∧ some v = w := by
  refine h.bind h.starts (fun _ read => .ok (some read.1, read.2)) (fun e rest => ?_) ?_
  · obtain ⟨b, tail, hb, hblank, -, hn⟩ := h.starts rest
    rw [hb]
    dsimp only [Reader.optional]
    rw [skipBlanks_of_not_blank hblank]
    simp only [beq_eq_false_iff_ne.mpr hn, Bool.false_eq_true, if_false]
  · rintro e v rest w rest' s hw hv
    cases hw
    exact ⟨⟨v, hv, rfl⟩, fun _ v' _ => ⟨some v', rfl⟩⟩

/-! ### Lists -/

/-- The elements in front are read, and then the one that begins there. -/
theorem readElements_of_begun {Spells : α → Bytes → Prop} (h : r.Reads Spells) {e : Ending} {first : Bool}
    {vs : List α} {begun bytes : Bytes} (hb : Begun Spells first vs begun) (hs : Starts bytes)
    (done : List α) :
    readElements r e first done (begun ++ bytes) =
      r.read e bytes >>= fun (v, rest) => readElements r e false (v :: (vs.reverse ++ done)) rest := by
  obtain ⟨b, tail, rfl, hblank, hclose, -⟩ := hs
  induction hb generalizing done with
  | @next first separator hsep =>
    have hn : nextElement e first (separator ++ b :: tail) = .ok (.value, b :: tail) :=
      nextElement_value_iff.mpr ⟨separator, b, tail, hsep, rfl, hblank, hclose, rfl⟩
    rw [readElements_eq, hn]
    rfl
  | @item first v vs separator text more hsep ht _ ih =>
    obtain ⟨c, text, rfl, hc, hc'⟩ := h.starts ht
    have hn : nextElement e first (separator ++ (c :: text) ++ more ++ b :: tail) =
        .ok (.value, c :: text ++ (more ++ b :: tail)) :=
      nextElement_value_iff.mpr ⟨separator, c, text ++ (more ++ b :: tail), hsep, rfl, hc, hc', by simp⟩
    have hr : r.read e (c :: text ++ (more ++ b :: tail)) = .ok (v, more ++ b :: tail) :=
      h.read_iff.mpr ⟨[], _, blanks_nil, ht, rfl⟩
    rw [readElements_of_value hn hr, ih]
    simp

/-- Behind the first elements of a list and the front of the next one. -/
theorem list_textBehind {Spells : α → Bytes → Prop} (hr : r.Reads Spells) {vs : List α} {begun : Bytes}
    {Shown : String → α → Prop} (hb : Begun Spells true vs begun) (h : r.TextBehind front Alike Shown) :
    r.list.TextBehind (openBracket :: begun ++ front) Alike fun s ws =>
      ∃ v, ws[vs.length]? = some v ∧ Shown s v := by
  refine h.bind (fun rest => ⟨openBracket, _, rfl, rfl, by decide, by decide⟩)
    (fun e read => readElements r e false (read.1 :: vs.reverse) read.2 >>= fun more =>
      closeList e more.2 >>= fun rest => .ok (more.1, rest)) (fun e rest => ?_) ?_
  · have hread := readElements_of_begun hr (e := e) hb (h.starts rest) []
    rw [List.cons_append, List.cons_append, List.append_assoc]
    dsimp only [list]
    rw [readValue_cons rfl, if_pos (beq_self_eq_true _), hread, bind_assoc, List.append_nil]
  · intro e v rest ws rest' s hnext hv
    obtain ⟨⟨ws', rest₁⟩, hws, hclose⟩ := bind_eq_ok.mp hnext
    obtain ⟨rest₂, hclose, hok⟩ := bind_eq_ok.mp hclose
    cases hok
    obtain ⟨more, text, rest₃, hi, rfl, hrest, htext⟩ := (readElements_eq_ok_iff hr).mp hws
    refine ⟨⟨v, by simp, hv⟩, fun _ v' _ => ?_⟩
    have hws' : readElements r e false (v' :: vs.reverse) rest =
        .ok ((v' :: vs.reverse).reverse ++ more, rest₁) :=
      (readElements_eq_ok_iff hr).mpr ⟨more, text, rest₃, hi, rfl, hrest, htext⟩
    exact ⟨_, bind_eq_ok.mpr ⟨_, hws', bind_eq_ok.mpr ⟨_, hclose, rfl⟩⟩⟩

end Reader

/-! ### Records -/

/-- What is read of a member behind its key. -/
def Record.afterKey {σ : Type} (r : Record σ α) (e : Ending) (seen : List String) (s : σ)
    (read : String × Bytes) : Except Fault ((List String × σ) × Bytes) :=
  match r.fields.find? (·.key == read.1) with
  | some field => do
    let (s, rest) ← readField e field seen s read.2
    .ok ((read.1 :: seen, s), rest)
  | none => do
    let rest ← skipField e read.2
    .ok ((seen, s), rest)

theorem Record.readMember_eq {σ : Type} (r : Record σ α) (e : Ending) (seen : List String) (s : σ)
    (bytes : Bytes) : r.readMember e seen s bytes = readText e bytes >>= r.afterKey e seen s :=
  rfl

/-- What is read of an object behind one of its members. -/
def Record.afterMember {σ : Type} (r : Record σ α) (e : Ending) (read : (List String × σ) × Bytes) :
    Except Fault (α × Bytes) :=
  r.readMembers e false read.1.1 read.1.2 read.2 >>= r.closeMembers e

namespace Layout

variable {σ : Type} {r : Record σ α} (L : Layout r)

/-- What stands in a record in front of the value of a field. -/
inductive Before (i : L.Index) : Bytes → Prop where
  /-- In an object, behind members that are as they should be, and the key of the field, which none of them
  has. -/
  | member {members : List (String × Bytes)} {s : σ} {begun key before after : Bytes} :
      Begun Member true members begun → L.Says [] r.start members s → (∀ m ∈ members, m.1 ≠ L.key i) →
      StringLiteral (L.key i) key → Blanks before → Blanks after →
      Before i (openBrace :: begun ++ key ++ before ++ colon :: after)
  /-- In a list, behind the values of the fields before. -/
  | element {earlier later : List L.Index} {s : σ} {texts : List Bytes} {begun : Bytes} :
      L.order = earlier ++ i :: later → Begun (· = ·) true texts begun →
      earlier.Forall₂ (fun j text => L.Spells j (L.get j s) text) texts → Before i (openBracket :: begun)

/-- What stands in an object in front of a key. -/
inductive BeforeKey : Bytes → Prop where
  | member {members : List (String × Bytes)} {s : σ} {begun : Bytes} :
      Begun Member true members begun → L.Says [] r.start members s → BeforeKey (openBrace :: begun)

/-- The members in front are read, and then the one whose key begins there. -/
theorem readMembers_of_begun {first : Bool} {seen : List String} {s s' : σ}
    {members : List (String × Bytes)} {begun : Bytes} (hb : Begun Member first members begun)
    (hc : L.Collects seen s members s') :
    ∃ seen', (∀ key ∈ seen', key ∈ seen ∨ ∃ m ∈ members, m.1 = key) ∧
      ∀ e rest, r.readMembers e first seen s (begun ++ quote :: rest) =
        r.readMember e seen' s' rest >>= fun ((seen, s), rest) => r.readMembers e false seen s rest := by
  induction hb generalizing seen s with
  | @next first separator hs =>
    cases hc
    refine ⟨seen, fun key hk => .inl hk, fun e rest => ?_⟩
    have hn : Record.nextKey e first (separator ++ quote :: rest) = .ok (.value, rest) :=
      nextKey_value_iff.mpr ⟨separator, hs, rfl⟩
    rw [Record.readMembers_eq, hn]
    rfl
  | @item first m members separator text more hs hm hmore ih =>
    cases hc with
    | @cons _ seen₁ _ s₁ _ _ _ ht hc =>
      obtain ⟨seen', hseen, hread⟩ := ih hc
      refine ⟨seen', fun key hk => ?_, fun e rest => ?_⟩
      · rcases hseen key hk with hk | ⟨m', hm', rfl⟩
        · cases ht with
          | field =>
            rcases List.mem_cons.mp hk with rfl | hk
            · exact .inr ⟨_, List.mem_cons_self, rfl⟩
            · exact .inl hk
          | other => exact .inl hk
        · exact .inr ⟨m', List.mem_cons_of_mem _ hm', rfl⟩
      · obtain ⟨text, rfl⟩ := hm.exists_cons
        have hn : Record.nextKey e first (separator ++ quote :: text ++ more ++ quote :: rest) =
            .ok (.value, text ++ (more ++ quote :: rest)) :=
          nextKey_value_iff.mpr ⟨separator, hs, by simp⟩
        have hends : Ends e (more ++ quote :: rest) := by
          cases hmore with
          | next hs =>
            cases hs with
            | next hg => simpa using ends_of_blanks hg (.inl rfl) _
          | item hs =>
            cases hs with
            | next hg => simpa using ends_of_blanks hg (.inl rfl) _
        rw [Record.readMembers_eq, hn]
        show (r.readMember e seen s (text ++ (more ++ quote :: rest)) >>= _) = _
        rw [L.readMember_of_takes hm ht hends]
        exact hread e rest

theorem read_of_begun {s : σ} {members : List (String × Bytes)} {begun : Bytes}
    (hb : Begun Member true members begun) (hs : L.Says [] r.start members s) :
    ∃ seen, (∀ key ∈ seen, ∃ m ∈ members, m.1 = key) ∧
      ∀ e rest, r.reader.read e (openBrace :: begun ++ quote :: rest) =
        r.readMember e seen s rest >>= r.afterMember e := by
  obtain ⟨seen, hseen, hread⟩ := L.readMembers_of_begun hb (L.collects_iff.mpr hs)
  refine ⟨seen, fun key hk => (hseen key hk).resolve_left List.not_mem_nil, fun e rest => ?_⟩
  dsimp only [Record.reader]
  rw [List.cons_append, readValue_cons rfl]
  show r.readObject e (begun ++ quote :: rest) = _
  rw [Record.readObject, hread, bind_assoc]
  rfl

/-- Behind the front of a key the record comes to a string. -/
theorem BeforeKey.textBehind {L : Layout r} {front : Bytes} (h : L.BeforeKey front) :
    r.reader.TextBehind front Eq fun _ _ => True := by
  cases h with
  | @member members s begun hb hs =>
    obtain ⟨seen, -, hread⟩ := L.read_of_begun hb hs
    refine ⟨fun rest => ⟨openBrace, _, rfl, rfl, by decide, by decide⟩,
      fun e key => r.afterKey e seen s key >>= r.afterMember e, fun e rest => ?_, fun hv => ⟨trivial, ?_⟩⟩
    · rw [hread, Record.readMember_eq, bind_assoc]
    · rintro _ rfl
      exact ⟨_, hv⟩

/-- A member is read from behind its colon on, if there has been none of its key. -/
theorem readMember_field {i : L.Index} {seen : List String} {body before after : Bytes}
    (hi : L.key i ∉ seen) (hbody : Spelling (L.key i).toList body) (hbefore : Blanks before)
    (hafter : Blanks after) (hp : (L.reader i).PassesBlanks) (e : Ending) (s : σ) (rest : Bytes) :
    r.readMember e seen s (body ++ quote :: (before ++ colon :: (after ++ rest))) =
      (L.reader i).read e rest >>= fun (v, rest) => .ok ((L.key i :: seen, L.set i v s), rest) := by
  have hkey : readText e (body ++ quote :: (before ++ colon :: (after ++ rest))) =
      .ok (L.key i, before ++ colon :: (after ++ rest)) :=
    readText_eq_ok_iff.mpr ⟨body, hbody, rfl⟩
  have hcolon : readColon e (before ++ colon :: (after ++ rest)) = .ok (after ++ rest) :=
    readColon_eq_ok_iff.mpr ⟨before, hbefore, rfl⟩
  have hseen : ¬ seen.contains (L.field i).key = true := fun h => hi (List.contains_iff_mem.mp h)
  have hfield : Record.readField e (L.field i) seen s (before ++ colon :: (after ++ rest)) =
      (L.reader i).read e rest >>= fun (v, rest) => .ok (L.set i v s, rest) := by
    rw [Record.readField, if_neg hseen, hcolon]
    show ((L.reader i).map (L.set i)).read e (after ++ rest) >>= _ = _
    rw [hp.map (L.set i) hafter]
    exact bind_assoc ((L.reader i).read e rest) _ _
  rw [Record.readMember_eq, hkey]
  show r.afterKey e seen s _ = _
  rw [Record.afterKey, L.find?_field]
  show Record.readField e (L.field i) seen s _ >>= _ = _
  rw [hfield]
  exact bind_assoc ((L.reader i).read e rest) _ _

/-! ### Values that are exchanged -/

/-- With one of these values in the field the record can be built if it can be with another. -/
def Exchanges (i : L.Index) (Shown : String → L.Part i → Prop) : Prop :=
  ∀ {c w x x' v'}, r.build c = .ok w → Shown x (L.get i c) → Shown x' v' →
    ∃ w', r.build (L.set i v' c) = .ok w'

theorem set_set {i : L.Index} {v v' : L.Part i} {s : σ} : L.set i v' (L.set i v s) = L.set i v' s := by
  refine L.ext fun j => ?_
  by_cases hj : j = i
  · subst hj
    rw [L.get_set, L.get_set]
  · rw [L.get_set_of_ne hj, L.get_set_of_ne hj, L.get_set_of_ne hj]

theorem set_comm {i j : L.Index} (h : j ≠ i) {v : L.Part i} {w : L.Part j} {s : σ} :
    L.set j w (L.set i v s) = L.set i v (L.set j w s) := by
  refine L.ext fun k => ?_
  by_cases hj : k = j
  · subst hj
    rw [L.get_set, L.get_set_of_ne h, L.get_set]
  · by_cases hi : k = i
    · subst hi
      rw [L.get_set_of_ne hj, L.get_set, L.get_set]
    · rw [L.get_set_of_ne hj, L.get_set_of_ne hi, L.get_set_of_ne hi, L.get_set_of_ne hj]

/-- Members behind one of the field leave its value as it is. -/
theorem Says.get_eq {L : Layout r} {i : L.Index} {seen : List String} {s c : σ}
    {members : List (String × Bytes)} (h : L.Says seen s members c) (hi : L.key i ∈ seen) :
    L.get i c = L.get i s :=
  (fieldText_of_absent (h.unseen i hi)).mp (h.fields i)

/-- They say the same with another value there. -/
theorem Says.set {L : Layout r} {i : L.Index} {seen : List String} {s c : σ}
    {members : List (String × Bytes)} (h : L.Says seen s members c) (hi : L.key i ∈ seen) (v : L.Part i) :
    L.Says seen (L.set i v s) members (L.set i v c) where
  others := h.others
  unseen := h.unseen
  fields j := by
    by_cases hj : j = i
    · subst hj
      rw [L.get_set, L.get_set]
      exact .absent (h.unseen j hi)
    · rw [L.get_set_of_ne hj, L.get_set_of_ne hj]
      exact h.fields j

/-- So do the elements of other fields. -/
theorem Positional.set {L : Layout r} {i : L.Index} {is : List L.Index} {s c : σ} {texts : List Bytes}
    (h : L.Positional is s texts c) (hi : i ∉ is) (v : L.Part i) :
    L.Positional is (L.set i v s) texts (L.set i v c) := by
  induction h with
  | nil => exact .nil
  | @cons j is s c w text texts hw _ ih =>
    rw [List.mem_cons, not_or] at hi
    refine .cons hw ?_
    rw [L.set_comm fun hj => hi.1 hj.symm]
    exact ih hi.2

/-! ### Behind the front of a field -/

/-- Behind the key of a field and the front of its value. -/
theorem member_textBehind {i : L.Index} {members : List (String × Bytes)} {s : σ}
    {begun key before after front : Bytes} {Alike : String → String → Prop}
    {Shown : String → L.Part i → Prop}
    (hb : Begun Member true members begun) (hs : L.Says [] r.start members s)
    (hnew : ∀ m ∈ members, m.1 ≠ L.key i) (hkey : StringLiteral (L.key i) key)
    (hbefore : Blanks before) (hafter : Blanks after) (hp : (L.reader i).PassesBlanks)
    (hex : L.Exchanges i Shown) (h : (L.reader i).TextBehind front Alike Shown) :
    r.reader.TextBehind (openBrace :: begun ++ key ++ before ++ colon :: after ++ front) Alike fun x v =>
      ∃ c, r.build c = .ok v ∧ Shown x (L.get i c) := by
  obtain ⟨seen, hseen, hread⟩ := L.read_of_begun hb hs
  cases hkey with
  | @quoted body hbody =>
    have hi : L.key i ∉ seen := by
      intro hmem
      obtain ⟨m, hm, hk⟩ := hseen _ hmem
      exact hnew m hm hk
    refine h.bind (fun rest => ⟨openBrace, _, rfl, rfl, by decide, by decide⟩)
      (fun e (v, rest) => r.afterMember e ((L.key i :: seen, L.set i v s), rest))
      (fun e rest => ?_) ?_
    · have hsplit : openBrace :: begun ++ (quote :: body ++ [quote]) ++ before ++ colon :: after ++ front ++
          quote :: rest = openBrace :: begun ++
            quote :: (body ++ quote :: (before ++ colon :: (after ++ (front ++ quote :: rest)))) := by
        simp
      rw [hsplit, hread, L.readMember_field hi hbody hbefore hafter hp, bind_assoc]
      rfl
    · intro e v rest w rest' x hnext hx
      obtain ⟨more, text, c, hi, hc, hbuild, rfl⟩ := L.readMembers_closeMembers_iff.mp hnext
      -- the members behind leave the value as it is, and would do so with any other
      have hget : L.get i c = v := (hc.get_eq List.mem_cons_self).trans L.get_set
      refine ⟨⟨c, hbuild, hget ▸ hx⟩, fun x' v' hx' => ?_⟩
      obtain ⟨w', hw'⟩ := hex hbuild (hget ▸ hx) hx'
      have hc' := hc.set List.mem_cons_self v'
      rw [L.set_set] at hc'
      exact ⟨w', L.readMembers_closeMembers_iff.mpr ⟨more, text, _, hi, hc', hw', rfl⟩⟩

theorem exists_positional {is : List L.Index} {s : σ} {texts : List Bytes}
    (h : is.Forall₂ (fun j text => L.Spells j (L.get j s) text) texts) (start : σ) :
    ∃ s', L.Positional is start texts s' := by
  induction h generalizing start with
  | nil => exact ⟨start, .nil⟩
  | @cons j _ _ _ hv _ ih =>
    obtain ⟨s', hpos⟩ := ih (L.set j (L.get j s) start)
    exact ⟨s', .cons hv hpos⟩

/-- The elements in front are read, each for its field, and then the one that begins there. -/
theorem readFields_of_begun {earlier : List L.Index} {index : Nat} {s s' : σ} {texts : List Bytes}
    {begun bytes : Bytes} (i : L.Index) (later : List L.Index) (hb : Begun (· = ·) (index == 0) texts begun)
    (hpos : L.Positional earlier s texts s') (hs : Starts bytes) (e : Ending) :
    r.readFields e index ((earlier ++ i :: later).map L.field) s (begun ++ bytes) =
      (L.reader i).read e bytes >>= fun (v, rest) =>
        r.readFields e (index + earlier.length + 1) (later.map L.field) (L.set i v s') rest := by
  induction earlier generalizing index s texts begun with
  | nil =>
    cases hpos
    cases hb with
    | next hsep =>
      obtain ⟨b, tail, rfl, hblank, hclose, -⟩ := hs
      have hn : nextElement e (index == 0) (begun ++ b :: tail) = .ok (.value, b :: tail) :=
        nextElement_value_iff.mpr ⟨begun, b, tail, hsep, rfl, hblank, hclose, rfl⟩
      rw [List.nil_append, List.map_cons, Record.readFields, hn]
      exact bind_assoc ((L.reader i).read e (b :: tail)) _ _
  | cons j earlier ih =>
    cases hpos with
    | @cons _ _ _ _ v text texts hv hpos =>
      cases hb with
      | @item _ _ _ separator _ more hsep heq hmore =>
        subst heq
        obtain ⟨b, tail, rfl, hblank, hclose⟩ := (L.reads j).starts hv
        have hn : nextElement e (index == 0) (separator ++ b :: tail ++ more ++ bytes) =
            .ok (.value, b :: tail ++ (more ++ bytes)) :=
          nextElement_value_iff.mpr
            ⟨separator, b, tail ++ (more ++ bytes), hsep, rfl, hblank, hclose, by simp⟩
        have hread : ((L.reader j).map (L.set j)).read e (b :: tail ++ (more ++ bytes)) =
            .ok (L.set j v, more ++ bytes) :=
          ((L.reads j).map (L.set j)).read_iff.mpr ⟨[], _, blanks_nil, ⟨v, hv, rfl⟩, rfl⟩
        have hmore' : Begun (· = ·) (index + 1 == 0) texts more := hmore
        have hindex : index + (j :: earlier).length + 1 = index + 1 + earlier.length + 1 := by
          rw [List.length_cons]
          omega
        rw [List.cons_append, List.map_cons, Record.readFields, hn]
        show ((L.reader j).map (L.set j)).read e _ >>= _ = _
        rw [hread]
        show r.readFields e (index + 1) _ _ _ = _
        rw [ih hmore' hpos, hindex]

/-- Behind the elements of the fields before, and the front of the next one. -/
theorem element_textBehind {i : L.Index} {earlier later : List L.Index} {s : σ} {texts : List Bytes}
    {begun front : Bytes} {Alike : String → String → Prop} {Shown : String → L.Part i → Prop}
    (horder : L.order = earlier ++ i :: later) (hb : Begun (· = ·) true texts begun)
    (hall : earlier.Forall₂ (fun j text => L.Spells j (L.get j s) text) texts)
    (hex : L.Exchanges i Shown) (h : (L.reader i).TextBehind front Alike Shown) :
    r.reader.TextBehind (openBracket :: begun ++ front) Alike fun x v =>
      ∃ c, r.build c = .ok v ∧ Shown x (L.get i c) := by
  obtain ⟨s', hpos⟩ := L.exists_positional hall r.start
  have hfields : r.fields = (earlier ++ i :: later).map L.field := horder ▸ L.fields_eq
  have hlater : i ∉ later ∧ later.Nodup := by
    have hnodup := L.nodup_order
    rw [horder] at hnodup
    exact List.nodup_cons.mp (List.nodup_append.mp hnodup).2.1
  refine h.bind (fun rest => ⟨openBracket, _, rfl, rfl, by decide, by decide⟩)
    (fun e (v, rest) =>
      r.readFields e (0 + earlier.length + 1) (later.map L.field) (L.set i v s') rest >>= r.closeFields e)
    (fun e rest => ?_) ?_
  · have hb : Begun (· = ·) (0 == 0) texts begun := hb
    have hread := L.readFields_of_begun i later hb hpos (h.starts rest) e
    rw [← hfields] at hread
    rw [List.cons_append, List.cons_append, List.append_assoc]
    dsimp only [Record.reader]
    rw [readValue_cons rfl]
    show r.readList e (begun ++ (front ++ quote :: rest)) = _
    rw [Record.readList, hread, bind_assoc]
    rfl
  · intro e v rest w rest' x hnext hx
    obtain ⟨more, text, c, hmore, hc, hbuild, rfl⟩ := L.readFields_closeFields_iff.mp hnext
    have hget : L.get i c = v := (((L.positional_iff hlater.2).mp hc).2 i hlater.1).trans L.get_set
    refine ⟨⟨c, hbuild, hget ▸ hx⟩, fun x' v' hx' => ?_⟩
    obtain ⟨w', hw'⟩ := hex hbuild (hget ▸ hx) hx'
    have hc' := hc.set hlater.1 v'
    rw [L.set_set] at hc'
    exact ⟨w', L.readFields_closeFields_iff.mpr ⟨more, text, _, hmore, hc', hw', rfl⟩⟩

/-- Behind the front of a field, and then one behind which the field comes to a string. -/
theorem Before.textBehind {L : Layout r} {i : L.Index} {front front' : Bytes}
    {Alike : String → String → Prop} {Shown : String → L.Part i → Prop} (hb : L.Before i front)
    (hp : (L.reader i).PassesBlanks) (hex : L.Exchanges i Shown)
    (h : (L.reader i).TextBehind front' Alike Shown) :
    r.reader.TextBehind (front ++ front') Alike fun x v =>
      ∃ c, r.build c = .ok v ∧ Shown x (L.get i c) := by
  cases hb with
  | member hb hs hnew hkey hbefore hafter =>
    exact L.member_textBehind hb hs hnew hkey hbefore hafter hp hex h
  | element horder hb hall => exact L.element_textBehind horder hb hall hex h

end Layout

/-! ### Whole inputs -/

namespace Reader

variable {r : Reader α}

/-- An input is read exactly if the string behind `front` is, and then all that follows. -/
theorem TextBehind.exists_parse {front gap : Bytes} {Alike : String → String → Prop}
    {Shows : String → α → Prop} (h : r.TextBehind front Alike Shows) (hg : Blanks gap) :
    ∃ Goes : String → Bytes → α → Prop,
      (∀ s back v, Goes s back v → Shows s v ∧ ∀ s', Alike s s' → ∃ v', Goes s' back v') ∧
      ∀ delivery rest v, r.parse ⟨gap ++ front ++ quote :: rest, delivery, .closed⟩ = .ok v ↔
        ∃ s back, readText .closed rest = .ok (s, back) ∧ Goes s back v := by
  obtain ⟨next, hread, hshows⟩ := h.reads
  refine ⟨fun s back v => ∃ rest, next .closed (s, back) = .ok (v, rest) ∧ Blanks rest, ?_, ?_⟩
  · rintro s back v ⟨rest, hnext, hrest⟩
    refine ⟨(hshows hnext).1, fun s' hs' => ?_⟩
    obtain ⟨v', hv'⟩ := (hshows hnext).2 s' hs'
    exact ⟨v', rest, hv', hrest⟩
  · intro delivery rest v
    obtain ⟨b, tail, hb, hblank, -⟩ := h.starts rest
    have hskip : skipBlanks (gap ++ front ++ quote :: rest) = b :: tail := by
      rw [List.append_assoc, hb, skipBlanks_gap hg hblank]
    rw [parse_eq_ok_iff, readAll_eq_ok_iff]
    refine ⟨?_, ?_⟩
    · rintro ⟨b', tail', rest', hb', hr, hrest⟩
      rw [← hb', hskip, ← hb, hread] at hr
      obtain ⟨⟨s, back⟩, htext, hnext⟩ := bind_eq_ok.mp hr
      exact ⟨s, back, htext, rest', hnext, hrest⟩
    · rintro ⟨s, back, htext, rest', hnext, hrest⟩
      refine ⟨b, tail, rest', hskip, ?_, hrest⟩
      rw [← hb, hread]
      exact bind_eq_ok.mpr ⟨_, htext, hnext⟩

end Reader

/-! ### The places of what has been read -/

/-- Where one of the items stands. -/
theorem Items.exists_begun {Spells : β → Bytes → Prop} {closing : UInt8} {first : Bool} {v : β}
    {earlier later : List β} {text : Bytes} (h : Items Spells closing first (earlier ++ v :: later) text) :
    ∃ begun vtext rest, Begun Spells first earlier begun ∧ Spells v vtext ∧
      text = begun ++ vtext ++ rest := by
  induction earlier generalizing first text with
  | nil =>
    cases h with
    | item hs hv => exact ⟨_, _, _, .next hs, hv, rfl⟩
  | cons w earlier ih =>
    cases h with
    | item hs hw h =>
      obtain ⟨begun, vtext, rest, hb, hv, rfl⟩ := ih h
      exact ⟨_, vtext, rest, .item hs hw hb, hv, by simp⟩

/-- Where the item at `j` stands between the brackets. -/
theorem Enclosed.exists_begun {Spells : β → Bytes → Prop} {opening closing : UInt8} {vs : List β} {j : Nat}
    {v : β} {text : Bytes} (h : Enclosed Spells opening closing vs text) (hv : vs[j]? = .some v) :
    ∃ begun vtext rest, Begun Spells true (vs.take j) begun ∧ (vs.take j).length = j ∧ Spells v vtext ∧
      text = opening :: begun ++ vtext ++ rest := by
  obtain ⟨inside, hi, rfl⟩ := enclosed_iff.mp h
  obtain ⟨hj, rfl⟩ := List.getElem?_eq_some_iff.mp hv
  rw [← List.take_append_drop j vs, List.drop_eq_getElem_cons hj] at hi
  obtain ⟨begun, vtext, rest, hb, hs, rfl⟩ := hi.exists_begun
  exact ⟨begun, vtext, rest, hb, List.length_take_of_le (Nat.le_of_lt hj), hs, rfl⟩

theorem exists_of_forall₂_append {γ : Type} {R : β → γ → Prop} {earlier later : List β} {v : β} {ws : List γ}
    (h : (earlier ++ v :: later).Forall₂ R ws) :
    ∃ ws' w more, ws = ws' ++ w :: more ∧ earlier.Forall₂ R ws' ∧ R v w := by
  induction earlier generalizing ws with
  | nil =>
    cases h with
    | cons hv => exact ⟨[], _, _, rfl, .nil, hv⟩
  | cons u earlier ih =>
    cases h with
    | cons hu h =>
      obtain ⟨ws', w, more, rfl, hall, hv⟩ := ih h
      exact ⟨_ :: ws', w, more, rfl, .cons hu hall, hv⟩

namespace Layout

variable {σ : Type} {r : Record σ α} (L : Layout r)

theorem exists_collects_of_append {seen : List String} {s s'' : σ} {earlier later : List (String × Bytes)}
    (h : L.Collects seen s (earlier ++ later) s'') : ∃ s', L.Collects seen s earlier s' := by
  induction earlier generalizing seen s with
  | nil => exact ⟨s, .nil⟩
  | cons m earlier ih =>
    cases h with
    | cons ht h =>
      obtain ⟨s', hc⟩ := ih h
      exact ⟨s', .cons ht hc⟩

/-- The value of a field stands behind a front, unless it is the default. -/
theorem Filled.exists_before {L : Layout r} {s : σ} {text : Bytes} (h : L.Filled s text) (i : L.Index) :
    L.get i s = L.get i r.start ∨ ∃ front vtext rest, L.Before i front ∧ L.Spells i (L.get i s) vtext ∧
      text = front ++ vtext ++ rest := by
  cases h with
  | @object members _ ho hothers hfields =>
    generalize hv : L.get i s = v
    have hfield := hfields i
    rw [hv] at hfield
    cases hfield with
    | absent => exact .inl rfl
    | @present _ vtext hp hspells =>
      obtain ⟨earlier, later, rfl, hnone, -, -⟩ := List.filter_eq_cons_iff.mp hp
      have hsaid : L.Says [] r.start (earlier ++ (L.key i, vtext) :: later) s :=
        ⟨hothers, hfields, fun i hi => absurd hi List.not_mem_nil⟩
      obtain ⟨s', hc⟩ := L.exists_collects_of_append (L.collects_iff.mpr hsaid)
      obtain ⟨inside, hi, rfl⟩ := enclosed_iff.mp ho
      obtain ⟨begun, mtext, rest, hb, hm, rfl⟩ := hi.exists_begun
      cases hm with
      | @colon _ key before after _ hkey hbefore hafter =>
        refine .inr ⟨openBrace :: begun ++ key ++ before ++ colon :: after, vtext, rest, ?_, hspells, by simp⟩
        exact .member hb (L.collects_iff.mp hc) (fun m hm hk => hnone m hm (decide_eq_true hk)) hkey hbefore
          hafter
  | @list texts _ hl hall =>
    obtain ⟨earlier, later, horder⟩ := List.append_of_mem (L.mem_order i)
    rw [horder] at hall
    obtain ⟨before, vtext, more, rfl, hearlier, hspells⟩ := exists_of_forall₂_append hall
    obtain ⟨inside, hi, rfl⟩ := enclosed_iff.mp hl
    obtain ⟨begun, _, rest, hb, rfl, rfl⟩ := hi.exists_begun
    exact .inr ⟨openBracket :: begun, _, rest, .element horder hb hearlier, hspells, rfl⟩

end Layout

end BuildFleet.Json
