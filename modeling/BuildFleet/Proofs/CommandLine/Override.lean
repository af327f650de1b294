import BuildFleet.Json.Reader
import BuildFleet.Proofs.CommandLine

/-!
# Command lines — options override their variables

An option that is named on the command line does not take its value from its variable, whatever that
holds (`read_hold`): either it has been given a value once all words are read, or the reading has come
to an end before.

What one word can do to the reading is said once (`Progress.Reads`).  An option that has been named
stays so (`Progress.Reads.has`), and a word that names one does it unless all words are plain already
(`Progress.Reads.names`).

* `read_eq_asked_iff`: whether a text is asked for is up to the words alone.
* `AsksFor.exists_word`: and then some word is a flag for it.
-/

namespace BuildFleet.CommandLine
open Json (bind_eq_ok)

/-- The variable of the option holds this instead. -/
def ValueOption.hold (option : ValueOption) (held : Option String) (environment : Environment) :
    Environment :=
  match option with
  | .machines => { environment with machines := held }
  | .input => { environment with input := held }

/-- The words name the option, in front of any separator. -/
def Names (option : ValueOption) (words : List String) : Prop :=
  ∃ before word after, words = before ++ word :: after ∧
    (∀ other ∈ before, Word.ofText other ≠ .separator) ∧
    ∃ value, Word.ofText word = .long option.name value

/-- The words ask for the text of a flag. -/
def AsksFor (flag : Flag) (words : List String) : Prop :=
  words.foldlM Progress.read {} = .error (.asked flag)

/-- The word is the flag, by its name or by its letter. -/
def Flag.IsWord (flag : Flag) (word : String) : Prop :=
  (∃ name, Word.ofText word = .long name none ∧ Flag.ofName? name = some flag) ∨
    ∃ letter, Word.ofText word = .short letter ∧ Flag.ofLetter? letter = some flag

/-! ### Settling -/

theorem ValueOption.name_of_ofName? {name : String} {option : ValueOption}
    (h : ValueOption.ofName? name = some option) : name = option.name := by
  unfold ValueOption.ofName? at h
  split at h
  · cases h
    assumption
  · split at h
    · cases h
      assumption
    · cases h

theorem ValueOption.name_injective : Function.Injective ValueOption.name := by
  intro option other h
  exact Option.some.inj (by rw [← Progress.ofName?_name, h, Progress.ofName?_name])

theorem ValueOption.get_set_self (option : ValueOption) (value : String) (given : Arguments) :
    option.get (option.set value given) = some value := by
  cases option <;> rfl

theorem ValueOption.isSome_get_set {option other : ValueOption} {value : String} {given : Arguments}
    (h : (option.get given).isSome) : (option.get (other.set value given)).isSome := by
  cases option <;> cases other <;> first | exact h | rfl

theorem settle_eq_ok {option : ValueOption} {value : Option String} {given given' : Arguments}
    (h : settle option value given = .ok given') :
    ∃ text, value = some text ∧ given' = option.set text given := by
  cases value with
  | none => cases h
  | some text =>
    simp only [settle] at h
    split at h
    · cases h
    · split at h
      · cases h
      · cases h
        exact ⟨text, rfl, rfl⟩

theorem fromVariable_of_isSome {option : ValueOption} {given : Arguments} (held : Option String)
    (h : (option.get given).isSome) : fromVariable option held given = .ok given := by
  obtain ⟨value, hv⟩ := Option.isSome_iff_exists.mp h
  simp only [fromVariable, hv]

theorem fromVariable_isSome {option other : ValueOption} {held : Option String}
    {given given' : Arguments} (h : fromVariable other held given = .ok given')
    (hg : (option.get given).isSome) : (option.get given').isSome := by
  unfold fromVariable at h
  split at h
  · obtain ⟨text, -, rfl⟩ := settle_eq_ok h
    exact ValueOption.isSome_get_set hg
  · cases h
    exact hg

namespace Progress
variable {p p' : Progress} {option : ValueOption} {word : String}

/-- The option has a value, or waits to be settled. -/
def Has (p : Progress) (option : ValueOption) : Prop :=
  (option.get p.given).isSome ∨ ∃ value, p.pending = some (option, value)

theorem Has.isSome_of_settled (h : p.Has option) (hs : p.settled = .ok p') :
    (option.get p'.given).isSome := by
  unfold settled at hs
  split at hs
  case h_1 hpending =>
    cases hs
    rcases h with h | ⟨value, h⟩
    · exact h
    · cases hpending.symm.trans h
  case h_2 other value hpending =>
    obtain ⟨given, hgiven, hs⟩ := bind_eq_ok.mp hs
    cases hs
    obtain ⟨text, -, rfl⟩ := settle_eq_ok hgiven
    rcases h with h | ⟨value', h⟩
    · exact ValueOption.isSome_get_set h
    · cases hpending.symm.trans h
      exact Option.isSome_of_eq_some (option.get_set_self text p.given)

theorem trailing_of_settled (hs : p.settled = .ok p') : p'.trailing = p.trailing := by
  unfold settled at hs
  split at hs
  · cases hs
    rfl
  · obtain ⟨given, -, hs⟩ := bind_eq_ok.mp hs
    cases hs
    rfl

/-! ### One word -/

/-- What one word can do to the reading. -/
inductive Reads (p : Progress) (word : String) : Progress → Prop where
  | separator : Word.ofText word = .separator → Reads p word { p with trailing := true }
  /-- It is the value of the option in front of it. -/
  | value {option : ValueOption} : Word.ofText word = .plain → p.pending = some (option, none) →
      Reads p word { p with pending := some (option, some word) }
  | mode {q : Progress} : p.trailing = true ∨ Word.ofText word = .plain → p.settled = .ok q →
      Reads p word { q with given := { q.given with mode := some word } }
  | named {q : Progress} {option : ValueOption} : Word.ofText word = .long option.name none →
      p.settled = .ok q → Reads p word { q with pending := some (option, none) }
  | assigned {q : Progress} {option : ValueOption} {value : String} :
      Word.ofText word = .long option.name (some value) → p.settled = .ok q →
      Reads p word { q with given := option.set value q.given }

theorem reads_of_positional (h : p.positional word = .ok p')
    (hw : p.trailing = true ∨ Word.ofText word = .plain) : p.Reads word p' := by
  unfold positional at h
  split at h
  · cases h
  · obtain ⟨q, hq, h⟩ := bind_eq_ok.mp h
    cases h
    exact .mode hw hq

theorem flag_ne_ok (flag : Flag) : p.flag flag ≠ .ok p' := by
  intro h
  obtain ⟨_, -, h⟩ := bind_eq_ok.mp h
  cases h

theorem reads_of_long {name : String} {value : Option String} (h : p.long name value = .ok p')
    (hw : Word.ofText word = .long name value) : p.Reads word p' := by
  unfold long at h
  split at h
  case h_1 option _ hname =>
    obtain rfl := ValueOption.name_of_ofName? hname
    obtain ⟨q, hq, h⟩ := bind_eq_ok.mp h
    cases h
    exact .named hw hq
  case h_2 option _ value hname =>
    obtain rfl := ValueOption.name_of_ofName? hname
    obtain ⟨q, hq, h⟩ := bind_eq_ok.mp h
    obtain ⟨given, hgiven, h⟩ := bind_eq_ok.mp h
    cases h
    obtain ⟨text, ht, rfl⟩ := settle_eq_ok hgiven
    cases ht
    exact .assigned hw hq
  case h_3 => exact absurd h (flag_ne_ok _)
  case h_4 => cases h
  case h_5 => cases h

/-- **One step of the reading.** -/
theorem reads_of_read (h : p.read word = .ok p') : p.Reads word p' := by
  unfold read at h
  split at h
  case isTrue ht => exact reads_of_positional h (.inl ht)
  case isFalse ht =>
    split at h
    case h_1 hw =>
      cases h
      exact .separator hw
    case h_2 name value hw => exact reads_of_long h hw
    case h_3 letter hw =>
      split at h
      · exact absurd h (flag_ne_ok _)
      · cases h
    case h_4 hw =>
      unfold plain at h
      split at h
      case h_1 option hpending =>
        cases h
        exact .value hw hpending
      case h_2 => exact reads_of_positional h (.inr hw)

/-- An option that has been named stays so. -/
theorem Reads.has (h : p.Reads word p') (hp : p.Has option) : p'.Has option := by
  cases h with
  | separator => exact hp
  | value _ hpending =>
    rcases hp with hp | ⟨value, hp⟩
    · exact .inl hp
    · cases hpending.symm.trans hp
      exact .inr ⟨_, rfl⟩
  | mode _ hq =>
    have hmode := hp.isSome_of_settled hq
    cases option <;> exact .inl hmode
  | named _ hq =>
    have hnamed := hp.isSome_of_settled hq
    exact .inl hnamed
  | assigned _ hq => exact .inl (ValueOption.isSome_get_set (hp.isSome_of_settled hq))

/-- Only a separator makes all further words plain. -/
theorem Reads.trailing (h : p.Reads word p') (hw : Word.ofText word ≠ .separator)
    (hp : p.trailing = false) : p'.trailing = false := by
  cases h with
  | separator hs => exact absurd hs hw
  | value => exact hp
  | mode _ hq => exact (trailing_of_settled hq).trans hp
  | named _ hq => exact (trailing_of_settled hq).trans hp
  | assigned _ hq => exact (trailing_of_settled hq).trans hp

/-- A word that names an option does it. -/
theorem Reads.names {value : Option String} (h : p.Reads word p')
    (hw : Word.ofText word = .long option.name value) (hp : p.trailing = false) : p'.Has option := by
  have hname : ∀ {other : ValueOption} {value' : Option String},
      Word.ofText word = .long other.name value' → other = option := by
    intro other value' ho
    injection ho.symm.trans hw with hname
    exact ValueOption.name_injective hname
  cases h with
  | separator hs => cases hs.symm.trans hw
  | value hs => cases hs.symm.trans hw
  | mode hs =>
    rcases hs with hs | hs
    · cases hp.symm.trans hs
    · cases hs.symm.trans hw
  | named hs =>
    obtain rfl := hname hs
    exact .inr ⟨_, rfl⟩
  | assigned hs =>
    obtain rfl := hname hs
    exact .inl (Option.isSome_of_eq_some (ValueOption.get_set_self _ _ _))

/-! ### All words -/

/-- What every word keeps, all of them keep. -/
theorem foldlM_keeps {kept : Progress → Prop} {words : List String}
    (hstep : ∀ word ∈ words, ∀ p p', p.Reads word p' → kept p → kept p') (hp : kept p)
    (h : words.foldlM Progress.read p = .ok p') : kept p' := by
  induction words generalizing p with
  | nil =>
    cases h
    exact hp
  | cons word words ih =>
    rw [List.foldlM_cons] at h
    obtain ⟨q, hq, h⟩ := bind_eq_ok.mp h
    exact ih (fun other ho => hstep other (.tail _ ho))
      (hstep word List.mem_cons_self p q (reads_of_read hq) hp) h

/-- An option that the words name has been named once they are read. -/
theorem has_of_names {words : List String} (h : Names option words)
    (hp : words.foldlM Progress.read {} = .ok p) : p.Has option := by
  obtain ⟨before, word, after, rfl, hbefore, value, hw⟩ := h
  rw [List.foldlM_append] at hp
  obtain ⟨q, hq, hp⟩ := bind_eq_ok.mp hp
  rw [List.foldlM_cons] at hp
  obtain ⟨q', hq', hp⟩ := bind_eq_ok.mp hp
  have htrailing : q.trailing = false :=
    foldlM_keeps (fun other ho _ _ h => h.trailing (hbefore other ho)) rfl hq
  exact foldlM_keeps (fun _ _ _ _ h => h.has) ((reads_of_read hq').names hw htrailing) hp

end Progress

/-- **An option on the command line overrides its variable.** -/
theorem read_hold {option : ValueOption} {words : List String} (h : Names option words)
    (held : Option String) (environment : Environment) :
    read (option.hold held environment) words = read environment words := by
  unfold read
  cases hp : words.foldlM Progress.read {} with
  | error stop => rfl
  | ok p =>
    show (p.settled >>= _) = (p.settled >>= _)
    cases hq : p.settled with
    | error stop => rfl
    | ok q =>
      have hsome := (Progress.has_of_names h hp).isSome_of_settled hq
      show (fromVariable .machines (option.hold held environment).machines q.given >>= _) =
        (fromVariable .machines environment.machines q.given >>= _)
      cases option with
      | machines => rw [fromVariable_of_isSome _ hsome, fromVariable_of_isSome _ hsome]; rfl
      | input =>
        show (fromVariable .machines environment.machines q.given >>= _) = _
        cases hg : fromVariable .machines environment.machines q.given with
        | error stop => rfl
        | ok given =>
          have hsome := fromVariable_isSome hg hsome
          exact (fromVariable_of_isSome _ hsome).trans (fromVariable_of_isSome _ hsome).symm

/-! ### Asking for a text -/

theorem bind_eq_error {ε α β : Type} {x : Except ε α} {f : α → Except ε β} {e : ε}
    (h : x >>= f = .error e) : x = .error e ∨ ∃ v, x = .ok v ∧ f v = .error e := by
  cases x with
  | error e' =>
    cases h
    exact .inl rfl
  | ok v => exact .inr ⟨v, rfl, h⟩

theorem settle_ne_asked {option : ValueOption} {value : Option String} {given : Arguments}
    {flag : Flag} : settle option value given ≠ .error (.asked flag) := by
  unfold settle
  repeat' split
  all_goals simp

theorem fromVariable_ne_asked {option : ValueOption} {held : Option String} {given : Arguments}
    {flag : Flag} : fromVariable option held given ≠ .error (.asked flag) := by
  unfold fromVariable
  split
  · exact settle_ne_asked
  · simp

namespace Progress
variable {p : Progress} {flag : Flag} {word : String}

theorem settled_ne_asked : p.settled ≠ .error (.asked flag) := by
  unfold settled
  intro h
  split at h
  · cases h
  · rcases bind_eq_error h with h | ⟨_, -, h⟩
    · exact settle_ne_asked h
    · cases h

theorem positional_ne_asked : p.positional word ≠ .error (.asked flag) := by
  unfold positional
  intro h
  split at h
  · cases h
  · rcases bind_eq_error h with h | ⟨_, -, h⟩
    · exact settled_ne_asked h
    · cases h

theorem eq_of_flag_eq_asked {other : Flag} (h : p.flag other = .error (.asked flag)) :
    other = flag := by
  rcases bind_eq_error h with h | ⟨_, -, h⟩
  · exact absurd h settled_ne_asked
  · cases h
    rfl

theorem isWord_of_long_eq_asked {name : String} {value : Option String}
    (h : p.long name value = .error (.asked flag)) :
    value = none ∧ Flag.ofName? name = some flag := by
  unfold long at h
  split at h
  case h_1 =>
    rcases bind_eq_error h with h | ⟨_, -, h⟩
    · exact absurd h settled_ne_asked
    · cases h
  case h_2 =>
    rcases bind_eq_error h with h | ⟨_, -, h⟩
    · exact absurd h settled_ne_asked
    · rcases bind_eq_error h with h | ⟨_, -, h⟩
      · exact absurd h settle_ne_asked
      · cases h
  case h_3 hname =>
    obtain rfl := eq_of_flag_eq_asked h
    exact ⟨rfl, hname⟩
  case h_4 => cases h
  case h_5 => cases h

/-- A word at which a text is asked for is a flag for it. -/
theorem isWord_of_read_eq_asked (h : p.read word = .error (.asked flag)) : flag.IsWord word := by
  unfold read at h
  split at h
  case isTrue => exact absurd h positional_ne_asked
  case isFalse =>
    split at h
    case h_1 => cases h
    case h_2 name value hw =>
      obtain ⟨rfl, hname⟩ := isWord_of_long_eq_asked h
      exact .inl ⟨name, hw, hname⟩
    case h_3 letter hw =>
      split at h
      case h_1 hletter =>
        obtain rfl := eq_of_flag_eq_asked h
        exact .inr ⟨letter, hw, hletter⟩
      case h_2 => cases h
    case h_4 =>
      unfold plain at h
      split at h
      · cases h
      · exact absurd h positional_ne_asked

theorem exists_word_of_foldlM_eq_asked {words : List String}
    (h : words.foldlM Progress.read p = .error (.asked flag)) :
    ∃ word ∈ words, flag.IsWord word := by
  induction words generalizing p with
  | nil => cases h
  | cons word words ih =>
    rw [List.foldlM_cons] at h
    rcases bind_eq_error h with h | ⟨q, -, h⟩
    · exact ⟨word, List.mem_cons_self, isWord_of_read_eq_asked h⟩
    · obtain ⟨other, ho, hflag⟩ := ih h
      exact ⟨other, .tail _ ho, hflag⟩

end Progress

/-- Words that ask for a text hold a flag for it. -/
theorem AsksFor.exists_word {flag : Flag} {words : List String} (h : AsksFor flag words) :
    ∃ word ∈ words, flag.IsWord word :=
  Progress.exists_word_of_foldlM_eq_asked h

theorem read_eq_asked_iff {flag : Flag} {environment : Environment} {words : List String} :
    read environment words = .error (.asked flag) ↔ AsksFor flag words := by
  refine ⟨fun h => ?_, fun h => ?_⟩
  · rcases bind_eq_error h with h | ⟨p, -, h⟩
    · exact h
    · rcases bind_eq_error h with h | ⟨q, -, h⟩
      · exact absurd h Progress.settled_ne_asked
      · rcases bind_eq_error h with h | ⟨given, -, h⟩
        · exact absurd h fromVariable_ne_asked
        · exact absurd h fromVariable_ne_asked
  · rw [read, h]
    rfl

end BuildFleet.CommandLine
