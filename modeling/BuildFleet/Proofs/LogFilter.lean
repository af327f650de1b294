import BuildFleet.LogFilter
import BuildFleet.Proofs.Attempt

/-!
# Log filters — what is shown

* `exists_ofVariable?`: a text is torn only if a character in it has several bytes.  The places at which
  a directive is cut are behind one another, and none is behind the end of the text (`intact_next`).
* `mem_mostSpecific`: of several directives one of them is the most specific.
* `shows_iff`: where all directives are equally strict, it makes no difference which one that is.
* `default_shows_iff`: the default filter shows all warnings but the one about the mode.
-/

namespace BuildFleet.LogFilter

/-! ### Filters that are not torn -/

/-- Every character is one byte, so a text can be cut anywhere. -/
def OneByteEach (text : List Char) : Prop :=
  ∀ c ∈ text, c.utf8Size = 1

/-- It is not torn, and what it comes to has the property. -/
def Intact {α : Type} (post : α → Prop) : Except Flaw α → Prop
  | .ok v => post v
  | .error flaw => flaw ≠ .torn

theorem Intact.bind {α β : Type} {post : α → Prop} {post' : β → Prop} {x : Except Flaw α}
    {f : α → Except Flaw β} (hx : Intact post x) (hf : ∀ v, post v → Intact post' (f v)) :
    Intact post' (x >>= f) := by
  cases x with
  | error flaw => exact hx
  | ok v => exact hf v hx

theorem intact_mapM {α β : Type} {f : α → Except Flaw β} {xs : List α}
    (h : ∀ x ∈ xs, Intact (fun _ => True) (f x)) : Intact (fun _ => True) (xs.mapM f) := by
  induction xs with
  | nil => exact trivial
  | cons x xs ih =>
    rw [List.mapM_cons]
    exact (h x List.mem_cons_self).bind fun _ _ =>
      (ih fun y hy => h y (.tail _ hy)).bind fun _ _ => trivial

/-- What is being read began at this byte or before. -/
def State.BeganBy (place : Nat) : State → Prop
  | .word begin | .span begin | .field begin | .level begin => begin ≤ place
  | .start | .afterFields | .afterSpan => True

theorem State.BeganBy.mono {state : State} {place place' : Nat} (h : state.BeganBy place)
    (hp : place ≤ place') : state.BeganBy place' := by
  cases state with
  | word | span | field | level => exact Nat.le_trans h hp
  | start | afterFields | afterSpan => exact trivial

variable {text : List Char}

theorem splitBytes_eq (h : OneByteEach text) {n : Nat} (hn : n ≤ text.length) :
    splitBytes n text = .ok (text.take n, text.drop n) := by
  induction text generalizing n with
  | nil =>
    obtain rfl : n = 0 := Nat.le_zero.mp hn
    rfl
  | cons c rest ih =>
    cases n with
    | zero => rfl
    | succ n =>
      have hc : c.utf8Size = 1 := h c List.mem_cons_self
      have hrest : splitBytes n rest = .ok (rest.take n, rest.drop n) :=
        ih (fun d hd => h d (.tail _ hd)) (Nat.le_of_succ_le_succ hn)
      simp [splitBytes, hc, hrest, bind, Except.bind]

theorem intact_cutFrom (h : OneByteEach text) {begin : Nat} (hb : begin ≤ text.length) :
    Intact (fun _ => True) (cutFrom text begin) := by
  rw [cutFrom, splitBytes_eq h hb]
  exact trivial

theorem intact_cut (h : OneByteEach text) {begin stop : Nat} (hb : begin ≤ stop)
    (hs : stop ≤ text.length) : Intact (fun _ => True) (cut text begin stop) := by
  have hbefore : OneByteEach (text.take stop) := fun c hc => h c (List.mem_of_mem_take hc)
  rw [cut, splitBytes_eq h hs]
  exact intact_cutFrom hbefore (by simp [hb, hs])

theorem intact_field (part : List Char) : Intact (fun _ => True) (field part) := by
  unfold field
  split
  · exact trivial
  · dsimp only
    split
    · exact trivial
    · simp [Intact]

/-- The text is not torn by one more character, and what is being read began before the next one. -/
theorem intact_next (h : OneByteEach text) {state : State} {place : Nat}
    (hb : state.BeganBy place) (hp : place < text.length) (d : Directive) (c : Char) :
    Intact (fun out => out.1.BeganBy (place + 1)) (next text state d c place) := by
  have hcut : ∀ {begin}, begin ≤ place → Intact (fun _ => True) (cut text begin place) :=
    fun hb => intact_cut h hb (Nat.le_of_lt hp)
  cases state with
  | start =>
    simp only [next]
    split
    · exact Nat.le_refl _
    · split
      · exact Nat.le_succ place
      · simp [Intact]
  | word begin =>
    simp only [next]
    split
    · exact (hcut hb).bind fun _ _ => Nat.le_refl _
    · split
      · exact (hcut hb).bind fun _ _ => Nat.le_refl _
      · exact Nat.le_succ_of_le hb
  | span begin =>
    simp only [next]
    split
    · exact (hcut hb).bind fun _ _ => trivial
    · split
      · exact (hcut hb).bind fun _ _ => Nat.le_refl _
      · exact Nat.le_succ_of_le hb
  | field begin =>
    simp only [next]
    split
    · refine (hcut hb).bind fun part _ => ?_
      split
      · simp [Intact]
      · exact (intact_field part).bind fun _ _ => trivial
    · exact Nat.le_succ_of_le hb
  | afterFields =>
    simp only [next]
    split
    · exact trivial
    · simp [Intact]
  | afterSpan =>
    simp only [next]
    split
    · exact Nat.le_refl _
    · simp [Intact]
  | level begin => exact Nat.le_succ_of_le hb

theorem intact_scan (h : OneByteEach text) {rest : List Char} (hr : OneByteEach rest) {state : State}
    {place : Nat} (hb : state.BeganBy place) (hp : place + rest.length ≤ text.length)
    (d : Directive) :
    Intact (fun out => out.1.BeganBy text.length) (scan text state d place rest) := by
  induction rest generalizing state place d with
  | nil => exact hb.mono hp
  | cons c rest ih =>
    have hc : c.utf8Size = 1 := hr c List.mem_cons_self
    rw [List.length_cons] at hp
    rw [scan, hc]
    refine (intact_next h hb (by omega) d c).bind fun out hout => ?_
    exact ih (fun c hc => hr c (.tail _ hc)) hout (by omega) out.2

theorem intact_finish (h : OneByteEach text) {state : State} (hb : state.BeganBy text.length)
    (d : Directive) : Intact (fun _ => True) (finish text state d) := by
  cases state with
  | word begin => exact (intact_cutFrom h hb).bind fun _ _ => trivial
  | level begin =>
    refine (intact_cutFrom h hb).bind fun level _ => ?_
    split
    · exact trivial
    · simp [Intact]
  | afterSpan => exact trivial
  | start | span | field | afterFields => simp [finish, Intact]

theorem trim_sublist (text : List Char) : (Text.trim text).Sublist text := by
  rw [Text.trim, ← List.reverse_sublist, List.reverse_reverse]
  exact (List.dropWhile_sublist _).trans (List.dropWhile_sublist _).reverse

theorem intact_directive (h : OneByteEach text) : Intact (fun _ => True) (directive text) := by
  have htrim : OneByteEach (Text.trim text) := fun c hc => h c ((trim_sublist text).subset hc)
  have hlength : 0 + (Text.trim text).length ≤ text.length := by
    rw [Nat.zero_add]
    exact (trim_sublist text).length_le
  have hstart : State.start.BeganBy 0 := trivial
  exact (intact_scan h htrim hstart hlength {}).bind fun out hout => intact_finish h hout out.2

theorem mem_intersperse {α : Type} {sep x : α} {xs : List α} (h : x ∈ xs) :
    x ∈ xs.intersperse sep := by
  fun_induction List.intersperse sep xs with
  | case1 => exact h
  | case2 y => exact h
  | case3 y z xs ih =>
    rcases List.mem_cons.mp h with rfl | h
    · exact List.mem_cons_self
    · exact .tail _ (.tail _ (ih h))

/-- A filter is not torn that is not set, or in which every character is one byte. -/
theorem exists_ofVariable? {held : Option String} (h : ∀ text ∈ held, OneByteEach text.toList) :
    ∃ filter, ofVariable? held = some filter := by
  cases held with
  | none => exact ⟨default, rfl⟩
  | some text =>
    have hparts : ∀ part ∈ (text.toList.splitOn ',').filter (!·.isEmpty), OneByteEach part := by
      intro part hpart c hc
      have hjoin : [','].intercalate (text.toList.splitOn ',') = text.toList :=
        List.intercalate_splitOn ','
      refine h text rfl c ?_
      rw [← hjoin]
      exact List.mem_flatten.mpr ⟨part, mem_intersperse (List.mem_filter.mp hpart).1, hc⟩
    have hintact : Intact (fun _ => True) (ofText text) :=
      (intact_mapM fun part hpart => intact_directive (hparts part hpart)).bind fun _ _ => trivial
    rw [ofVariable?, Option.map_some]
    cases hread : ofText text with
    | ok filter => exact ⟨filter, rfl⟩
    | error flaw =>
      rw [hread] at hintact
      cases flaw with
      | malformed => exact ⟨default, rfl⟩
      | torn => exact absurd rfl hintact

/-! ### Events that are shown -/

/-- Of some directives, given that the best one so far is not the last, one is found. -/
theorem exists_foldl_yieldsTo (best : Directive) (rest : List Directive) :
    ∃ d ∈ best :: rest, rest.foldl (fun best d => best.elim (some d) fun b =>
      some (if b.yieldsTo d then d else b)) (some best) = some d := by
  induction rest generalizing best with
  | nil => exact ⟨best, List.mem_cons_self, rfl⟩
  | cons d rest ih =>
    by_cases hd : best.yieldsTo d = true
    · obtain ⟨found, hmem, hfound⟩ := ih d
      exact ⟨found, .tail _ hmem, by simpa [hd] using hfound⟩
    · obtain ⟨found, hmem, hfound⟩ := ih best
      refine ⟨found, ?_, by simpa [hd] using hfound⟩
      rcases List.mem_cons.mp hmem with rfl | hmem
      · exact List.mem_cons_self
      · exact .tail _ (.tail _ hmem)

theorem mem_mostSpecific {directives : List Directive} (h : directives ≠ []) :
    ∃ d ∈ directives, mostSpecific directives = some d := by
  cases directives with
  | nil => exact absurd rfl h
  | cons d rest => exact exists_foldl_yieldsTo d rest

/-- A filter of directives with one threshold shows an event that one of them is about, if its level is
within the threshold. -/
theorem shows_iff {f : LogFilter} {threshold : Threshold} (hne : f.directives ≠ [])
    (h : ∀ d ∈ f.directives, d.threshold = threshold) {e : Event} :
    f.shows e = true ↔ (∃ d ∈ f.directives, d.concerns e = true) ∧ e.level.rank ≤ threshold := by
  rw [shows, if_neg (by simpa using hne)]
  by_cases hnone : f.directives.filter (·.concerns e) = []
  · rw [hnone]
    refine iff_of_false (by simp [mostSpecific]) ?_
    rintro ⟨⟨d, hd, hc⟩, -⟩
    exact List.filter_eq_nil_iff.mp hnone d hd hc
  · obtain ⟨d, hd, hfound⟩ := mem_mostSpecific hnone
    obtain ⟨hd, hc⟩ := List.mem_filter.mp hd
    rw [hfound]
    simp only [h d hd, decide_eq_true_eq]
    exact ⟨fun hr => ⟨⟨d, hd, hc⟩, hr⟩, fun ⟨_, hr⟩ => hr⟩

/-- The default filter shows the warnings of the parts that it names, and no event here is above them. -/
theorem default_shows_iff {e : Event} :
    default.shows e = true ↔ e.level = .warn ∧ e.isModeWarning = false := by
  have hthreshold : ∀ d ∈ default.directives, d.threshold = 2 := by simp [default]
  rw [shows_iff (by simp [default]) hthreshold]
  cases e <;> simp [default, Directive.concerns, Directive.isStatic, Event.target, Event.level,
    Event.isModeWarning, Level.rank]

end BuildFleet.LogFilter
