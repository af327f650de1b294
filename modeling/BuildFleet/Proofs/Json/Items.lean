import BuildFleet.Proofs.Json.Shapes

/-!
# JSON — items between brackets

The grammar has items with commas between them, and brackets around.  A reader goes from item to
item, and after each of them looks for a comma or the closing bracket.  `Items` follows the reader,
`enclosed_iff` says that it is the same.

* `readElements_eq_ok_iff`: the elements that are read are the items up to the closing bracket.
* `Reader.list_reads`: a list is read if its elements are.
-/

namespace BuildFleet.Json

variable {β : Type} {Spells : β → Bytes → Prop} {closing : UInt8}

/-- What stands in front of an item: blanks, and a comma between them unless it is the first. -/
inductive Separator : Bool → Bytes → Prop where
  | first {gap : Bytes} : Blanks gap → Separator true gap
  | next {before after : Bytes} : Blanks before → Blanks after →
      Separator false (before ++ comma :: after)

/-- The items from here on, with the closing bracket behind them; whether the next is the first. -/
inductive Items (Spells : β → Bytes → Prop) (closing : UInt8) : Bool → List β → Bytes → Prop where
  | close {first : Bool} {gap : Bytes} : Blanks gap → Items Spells closing first [] (gap ++ [closing])
  | item {first : Bool} {v : β} {vs : List β} {separator text more : Bytes} :
      Separator first separator → Spells v text → Items Spells closing false vs more →
      Items Spells closing first (v :: vs) (separator ++ text ++ more)

/-! ### Items and the grammar -/

/-- Items are followed by the next ones after a comma. -/
theorem Items.after_comma {v : β} {vs : List β} {gap more : Bytes} (hg : Blanks gap)
    (h : Items Spells closing true (v :: vs) more) :
    Items Spells closing false (v :: vs) (gap ++ comma :: more) := by
  cases h with
  | @item _ _ _ separator text more hs ht hm =>
    cases hs with
    | first hb =>
      rw [show gap ++ comma :: (separator ++ text ++ more) =
        gap ++ comma :: separator ++ text ++ more by simp]
      exact .item (.next hg hb) ht hm

theorem items_of_separated {vs : List β} {body : Bytes} (h : Separated Spells vs body) :
    Items Spells closing true vs (body ++ [closing]) ∧ vs ≠ [] := by
  induction h with
  | @last v before text after hb ht ha =>
    refine ⟨?_, List.cons_ne_nil _ _⟩
    rw [List.append_assoc]
    exact .item (.first hb) ht (.close ha)
  | @cons v vs before text after more hb ht ha _ ih =>
    refine ⟨?_, List.cons_ne_nil _ _⟩
    -- after a comma there is an item, so the comma can be put in front of it
    obtain ⟨w, ws, rfl⟩ := List.exists_cons_of_ne_nil ih.2
    rw [show before ++ text ++ after ++ comma :: more ++ [closing] =
      before ++ text ++ (after ++ comma :: (more ++ [closing])) by simp]
    exact .item (.first hb) ht (ih.1.after_comma ha)

/-- An item and those after it are separated by commas. -/
theorem separated_of_items {v : β} {vs : List β} {before text more : Bytes} (hb : Blanks before)
    (ht : Spells v text) (h : Items Spells closing false vs more) :
    ∃ body, Separated Spells (v :: vs) body ∧ before ++ text ++ more = body ++ [closing] := by
  induction vs generalizing v before text more with
  | nil =>
    cases h with
    | close hg => exact ⟨_, .last hb ht hg, by simp⟩
  | cons w ws ih =>
    cases h with
    | @item _ _ _ separator text' more hs ht' hm =>
      cases hs with
      | @next gap after hg ha =>
        obtain ⟨body, hbody, heq⟩ := ih ha ht' hm
        refine ⟨_, .cons hb ht hg hbody, ?_⟩
        calc before ++ text ++ (gap ++ comma :: after ++ text' ++ more)
            = before ++ text ++ gap ++ comma :: (after ++ text' ++ more) := by simp
          _ = before ++ text ++ gap ++ comma :: body ++ [closing] := by rw [heq]; simp

/-- What stands between brackets, from the reader's side. -/
theorem enclosed_iff {opening : UInt8} {vs : List β} {text : Bytes} :
    Enclosed Spells opening closing vs text ↔
      ∃ inside, Items Spells closing true vs inside ∧ text = opening :: inside := by
  refine ⟨?_, ?_⟩
  · intro h
    cases h with
    | none hg => exact ⟨_, .close hg, rfl⟩
    | some hs => exact ⟨_, (items_of_separated hs).1, rfl⟩
  · rintro ⟨inside, h, rfl⟩
    cases h with
    | close hg => exact .none hg
    | item hs ht hm =>
      cases hs with
      | first hb =>
        obtain ⟨body, hbody, heq⟩ := separated_of_items hb ht hm
        rw [heq]
        exact .some hbody

/-- After an item comes nothing that could be more of it. -/
theorem Items.ends {e : Ending} {vs : List β} {more : Bytes} (h : Items Spells closing false vs more)
    (hc : closing = closeBracket ∨ closing = closeBrace) (rest : Bytes) : Ends e (more ++ rest) := by
  cases h with
  | close hg =>
    rw [List.append_assoc]
    exact ends_of_blanks hg (.inr hc) rest
  | item hs =>
    cases hs with
    | next hg =>
      simp only [List.append_assoc, List.cons_append]
      exact ends_of_blanks hg (.inl rfl) _

/-! ### Lists -/

theorem nextElement_after_iff {e : Ending} {first : Bool} {bytes rest : Bytes} :
    nextElement e first bytes = .ok (.after, rest) ↔
      ∃ gap rest', Blanks gap ∧ rest = closeBracket :: rest' ∧ bytes = gap ++ closeBracket :: rest' := by
  refine ⟨?_, ?_⟩
  · intro h
    rw [nextElement] at h
    split at h
    · cases h
    · rename_i b tail hb
      obtain ⟨-, gap, hg, rfl⟩ := skipBlanks_eq_cons_iff.mp hb
      split at h
      · rename_i hc
        cases h
        obtain rfl := eq_of_beq hc
        exact ⟨gap, tail, hg, rfl, rfl⟩
      · split at h
        · cases h
        · split at h
          · split at h
            · cases h
            · split at h <;> cases h
          · cases h
  · rintro ⟨gap, rest', hg, rfl, rfl⟩
    simp [nextElement, skipBlanks_gap hg (show isBlank closeBracket = false from rfl)]

theorem nextElement_value_iff {e : Ending} {first : Bool} {bytes rest : Bytes} :
    nextElement e first bytes = .ok (.value, rest) ↔ ∃ separator b tail, Separator first separator ∧
      rest = b :: tail ∧ isBlank b = false ∧ b ≠ closeBracket ∧ bytes = separator ++ rest := by
  refine ⟨?_, ?_⟩
  · intro h
    rw [nextElement] at h
    split at h
    · cases h
    · rename_i b tail hb
      obtain ⟨hblank, gap, hg, rfl⟩ := skipBlanks_eq_cons_iff.mp hb
      split at h
      · cases h
      · rename_i hc
        split at h
        · rename_i hfirst
          cases h
          subst hfirst
          exact ⟨gap, b, tail, .first hg, rfl, hblank, fun h => hc (h ▸ beq_self_eq_true _), rfl⟩
        · rename_i hfirst
          rw [Bool.not_eq_true] at hfirst
          subst hfirst
          split at h
          · rename_i hcomma
            obtain rfl := eq_of_beq hcomma
            split at h
            · cases h
            · rename_i c more hmore
              obtain ⟨hblank', gap', hg', rfl⟩ := skipBlanks_eq_cons_iff.mp hmore
              split at h
              · cases h
              · rename_i hc'
                cases h
                exact ⟨_, c, more, .next hg hg', rfl, hblank',
                  fun h => hc' (h ▸ beq_self_eq_true _), by simp⟩
          · cases h
  · rintro ⟨separator, b, tail, hs, rfl, hb, hc, rfl⟩
    cases hs with
    | first hg => simp [nextElement, skipBlanks_gap hg hb, hc]
    | next hg hg' =>
      rw [List.append_assoc, List.cons_append, nextElement, skipBlanks_gap hg rfl]
      simp [skipBlanks_gap hg' hb, hc, show (comma == closeBracket) = false from rfl]

theorem closeList_eq_ok_iff {e : Ending} {bytes rest : Bytes} :
    closeList e bytes = .ok rest ↔ ∃ gap, Blanks gap ∧ bytes = gap ++ closeBracket :: rest := by
  refine ⟨?_, ?_⟩
  · intro h
    rw [closeList] at h
    split at h
    · cases h
    · rename_i b tail hb
      obtain ⟨-, gap, hg, rfl⟩ := skipBlanks_eq_cons_iff.mp hb
      split at h
      · rename_i hc
        cases h
        exact ⟨gap, hg, by rw [eq_of_beq hc]⟩
      · split at h
        · split at h
          · cases h
          · split at h <;> cases h
        · cases h
  · rintro ⟨gap, hg, rfl⟩
    simp [closeList, skipBlanks_gap hg (show isBlank closeBracket = false from rfl)]

theorem readElements_of_close {r : Reader β} {e : Ending} {first : Bool} {bytes rest : Bytes}
    (h : nextElement e first bytes = .ok (.after, rest)) (done : List β) :
    readElements r e first done bytes = .ok (done.reverse, rest) := by
  rw [readElements]
  split <;> (rename_i hn; rw [h] at hn; cases hn)
  rfl

theorem readElements_of_value {r : Reader β} {e : Ending} {first : Bool} {bytes rest rest' : Bytes}
    {v : β} (h : nextElement e first bytes = .ok (.value, rest))
    (hr : r.read e rest = .ok (v, rest')) (done : List β) :
    readElements r e first done bytes = readElements r e false (v :: done) rest' := by
  rw [readElements]
  split
  · rename_i hn
    rw [h] at hn
    cases hn
  · rename_i hn
    rw [h] at hn
    cases hn
  · rename_i hn
    rw [h] at hn
    cases hn
    split <;> (rename_i hr'; rw [hr] at hr'; cases hr')
    rfl

theorem readElements_of_items {r : Reader β} (h : r.Reads Spells) {e : Ending} {first : Bool}
    {vs : List β} {text : Bytes} (hi : Items Spells closeBracket first vs text) (done : List β)
    (rest : Bytes) :
    readElements r e first done (text ++ rest) = .ok (done.reverse ++ vs, closeBracket :: rest) := by
  induction vs generalizing first done text with
  | nil =>
    cases hi with
    | @close _ gap hg =>
      have hn : nextElement e first (gap ++ [closeBracket] ++ rest) =
          .ok (.after, closeBracket :: rest) :=
        nextElement_after_iff.mpr ⟨gap, rest, hg, rfl, by simp⟩
      rw [readElements_of_close hn, List.append_nil]
  | cons v vs ih =>
    cases hi with
    | @item _ _ _ separator text more hs ht hm =>
      obtain ⟨b, tail, rfl, hb, hc⟩ := h.starts ht
      have hn : nextElement e first (separator ++ (b :: tail) ++ more ++ rest) =
          .ok (.value, b :: tail ++ (more ++ rest)) :=
        nextElement_value_iff.mpr ⟨separator, b, tail ++ (more ++ rest), hs, rfl, hb, hc, by simp⟩
      have hr : r.read e (b :: tail ++ (more ++ rest)) = .ok (v, more ++ rest) :=
        h.read_iff.mpr ⟨[], _, blanks_nil, ht, rfl⟩
      rw [readElements_of_value hn hr, ih hm]
      simp

/-- What is read between the brackets, up to the closing one, are the items there. -/
theorem readElements_eq_ok_iff {r : Reader β} (h : r.Reads Spells) {e : Ending} {first : Bool}
    {done vs : List β} {bytes rest : Bytes} :
    readElements r e first done bytes = .ok (vs, rest) ↔
      ∃ vs' text rest', Items Spells closeBracket first vs' text ∧ vs = done.reverse ++ vs' ∧
        rest = closeBracket :: rest' ∧ bytes = text ++ rest' := by
  refine ⟨?_, ?_⟩
  · intro hread
    fun_induction readElements r e first done bytes with
    | case1 | case3 => cases hread
    | case2 first done bytes rest₁ hn =>
      cases hread
      obtain ⟨gap, rest', hg, rfl, rfl⟩ := nextElement_after_iff.mp hn
      exact ⟨[], _, rest', .close hg, (List.append_nil _).symm, rfl, by simp⟩
    | case4 first done bytes rest₁ hn v rest₂ hr ih =>
      obtain ⟨separator, b, tail, hs, rfl, hb, -, rfl⟩ := nextElement_value_iff.mp hn
      obtain ⟨gap, text, hg, ht, heq⟩ := h.read_iff.mp hr
      obtain ⟨vs', more, rest', hm, rfl, rfl, rfl⟩ := ih hread
      -- the blanks have been skipped, so none are left in front of the value
      obtain rfl := hg.eq_nil hb (heq.trans (List.append_assoc ..))
      refine ⟨v :: vs', _, rest', .item hs ht hm, by simp, rfl, ?_⟩
      rw [heq]
      simp
  · rintro ⟨vs', text, rest', hi, rfl, rfl, rfl⟩
    exact readElements_of_items h hi done rest'

theorem Reader.list_reads {r : Reader β} (h : r.Reads Spells) : r.list.Reads (ListText Spells) := by
  refine Reader.reads_of_readValue (fun _ _ => rfl) ?_ ?_
  · intro e b tail vs rest _
    refine ⟨?_, ?_⟩
    · intro hread
      split at hread
      · rename_i hb
        obtain rfl := eq_of_beq hb
        obtain ⟨⟨vs', rest₁⟩, h₁, h₂⟩ := bind_eq_ok.mp hread
        obtain ⟨rest₂, h₃, h₄⟩ := bind_eq_ok.mp h₂
        cases h₄
        obtain ⟨vs'', text, rest', hi, rfl, rfl, rfl⟩ := (readElements_eq_ok_iff h).mp h₁
        obtain ⟨gap, hg, heq⟩ := closeList_eq_ok_iff.mp h₃
        obtain rfl := hg.eq_nil rfl heq
        obtain ⟨-, rfl⟩ := List.cons.inj heq
        exact ⟨text, enclosed_iff.mpr ⟨text, hi, rfl⟩, rfl⟩
      · cases hread
    · rintro ⟨text, ht, rfl⟩
      obtain ⟨inside, hi, heq⟩ := enclosed_iff.mp ht
      obtain ⟨rfl, rfl⟩ := List.cons.inj heq
      rw [if_pos (beq_self_eq_true _)]
      refine bind_eq_ok.mpr ⟨_, readElements_of_items h hi [] rest, ?_⟩
      exact bind_eq_ok.mpr ⟨rest, closeList_eq_ok_iff.mpr ⟨[], blanks_nil, rfl⟩, rfl⟩
  · intro vs text ht
    obtain ⟨inside, -, rfl⟩ := enclosed_iff.mp ht
    exact ⟨openBracket, inside, rfl, rfl, by decide⟩

end BuildFleet.Json
