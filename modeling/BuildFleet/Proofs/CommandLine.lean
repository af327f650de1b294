import Mathlib.Data.List.Forall2
import Mathlib.Data.List.Pairwise
import BuildFleet.CommandLine

/-!
# Command lines — handing over arguments

Arguments can be handed over in many ways: the mode as a word, and each option as two words, as one
word with an equals sign, or by its variable; and the words of the mode and of the options in any order
(`Handed`).

`read_of_handed`: they are all read as the arguments that they hand over.

The proof goes along the words item by item.  An option that was given as two words is not settled
before the next item, or the end; so the arguments given so far are those that the reading has come to
after settling (`Progress.Gives`), and an item adds to them (`Progress.Gives.foldlM_words`).
-/

namespace BuildFleet.CommandLine

/-! ### The words of arguments -/

/-- A word that stands for itself: a lone hyphen, or one that begins with no hyphen. -/
def IsPlain (word : String) : Prop :=
  word = "-" ∨ word.toList.head? ≠ some '-'

/-- What is said of one argument. -/
inductive Item where
  | mode (word : String)
  | setting (option : ValueOption) (value : String)

/-- The words that say it. -/
inductive Item.Words : Item → List String → Prop where
  | mode {word : String} : IsPlain word → Words (.mode word) [word]
  /-- The value is the next word. -/
  | next {option : ValueOption} {value : String} : value ≠ "" → IsPlain value →
      Words (.setting option value) [option.long, value]
  /-- The value follows an equals sign. -/
  | equals {option : ValueOption} {value : String} : value ≠ "" →
      Words (.setting option value) [option.long ++ "=" ++ value]

/-- All that is said of arguments, the mode first. -/
def items (args : Arguments) : List Item :=
  args.mode.toList.map .mode ++
    (args.machines.toList.map (.setting .machines) ++ args.input.toList.map (.setting .input))

/-- The words say all of the arguments, in some order. -/
def Says (args : Arguments) (words : List String) : Prop :=
  ∃ said parts, said.Perm (items args) ∧ List.Forall₂ Item.Words said parts ∧ words = parts.flatten

/-- The value of the variable that stands in for an option. -/
def Environment.held (environment : Environment) : ValueOption → Option String
  | .machines => environment.machines
  | .input => environment.input

/-- Where the value of an option is, if it has one. -/
inductive Provided (value : Option String) : Option String → Option String → Prop where
  /-- On the command line, whatever the variable holds. -/
  | onLine {word : String} {held : Option String} : value = some word → Provided value (some word) held
  /-- Not there, but in the variable. -/
  | inVariable : value ≠ some "" → Provided value none value

/-- The arguments are handed over by these words in this environment. -/
def Handed (args : Arguments) (environment : Environment) (words : List String) : Prop :=
  ∃ line, Says line words ∧ line.mode = args.mode ∧
    ∀ option : ValueOption, Provided (option.get args) (option.get line) (environment.held option)

/-! ### Single words -/

theorem ofText_of_isPlain {word : String} (h : IsPlain word) : Word.ofText word = .plain := by
  rcases h with rfl | h
  · rfl
  · unfold Word.ofText
    split <;> simp_all

/-- The option by its name, without the hyphens. -/
def ValueOption.name : ValueOption → String
  | .machines => "machines"
  | .input => "input"

theorem ofText_long (option : ValueOption) :
    Word.ofText option.long = .long option.name none := by
  cases option <;> rfl

theorem ofText_equals (option : ValueOption) (value : String) :
    Word.ofText (option.long ++ "=" ++ value) = .long option.name (some value) := by
  cases option <;>
    simp [Word.ofText, splitAtEquals, ValueOption.long, ValueOption.name, String.toList_append]

/-! ### Adding arguments -/

/-- What an item is about: the mode, or an option. -/
def Item.subject : Item → Option ValueOption
  | .mode _ => none
  | .setting option _ => some option

/-- The items are about different arguments. -/
def Item.Apart (x y : Item) : Prop :=
  x.subject ≠ y.subject

instance : Std.Symm Item.Apart where
  symm _ _ h := h.symm

/-- The argument that was given about a subject. -/
def about (given : Arguments) : Option ValueOption → Option String
  | none => given.mode
  | some option => option.get given

/-- The arguments with one more. -/
def Item.add (given : Arguments) : Item → Arguments
  | .mode word => { given with mode := some word }
  | .setting option value => option.set value given

theorem about_add_of_ne {item : Item} {subject : Option ValueOption} (given : Arguments)
    (h : item.subject ≠ subject) : about (item.add given) subject = about given subject := by
  rcases item with word | ⟨_ | _, value⟩ <;> rcases subject with _ | _ | _ <;>
    first | rfl | exact absurd rfl h

theorem add_add {x y : Item} (h : x.Apart y) (given : Arguments) :
    y.add (x.add given) = x.add (y.add given) := by
  rcases x with word | ⟨_ | _, value⟩ <;> rcases y with word' | ⟨_ | _, value'⟩ <;>
    first | rfl | exact absurd rfl h

theorem pairwise_items (args : Arguments) : (items args).Pairwise Item.Apart := by
  obtain ⟨_ | _, _ | _, _ | _⟩ := args <;> simp [items, Item.Apart, Item.subject]

theorem foldl_add_items (args : Arguments) : (items args).foldl Item.add {} = args := by
  obtain ⟨_ | _, _ | _, _ | _⟩ := args <;> rfl

/-- What is said of arguments gives them in any order. -/
theorem foldl_add_of_perm {said : List Item} {args : Arguments} (h : said.Perm (items args)) :
    said.foldl Item.add {} = args := by
  rw [← foldl_add_items args]
  refine h.foldl_eq' (fun x hx y hy given => ?_) _
  by_cases hxy : x = y
  · rw [hxy]
  · exact add_add ((pairwise_items args).forall (h.subset hx) (h.subset hy) hxy) given

/-! ### Reading items -/

/-- The words read so far have given these arguments, of which one may still have to be settled. -/
inductive Progress.Gives : Progress → Arguments → Prop where
  | settled (given : Arguments) : Gives ⟨given, none, false⟩ given
  | pending {given : Arguments} {option : ValueOption} {value : String} :
      option.get given = none → value ≠ "" →
      Gives ⟨given, some (option, some value), false⟩ (option.set value given)

namespace Progress
variable {p : Progress} {given : Arguments}

theorem settle_some {option : ValueOption} {value : String} (h : option.get given = none)
    (hv : value ≠ "") : settle option (some value) given = .ok (option.set value given) := by
  simp [settle, h, String.isEmpty_iff, hv]

theorem Gives.settled_eq (h : p.Gives given) : p.settled = .ok ⟨given, none, false⟩ := by
  cases h with
  | settled => rfl
  | pending hn hv =>
    rw [Progress.settled]
    simp only [settle_some hn hv]
    rfl

theorem Gives.mode_eq (h : p.Gives given) : p.given.mode = given.mode := by
  cases h with
  | settled => rfl
  | @pending _ option => cases option <;> rfl

theorem Gives.trailing_eq (h : p.Gives given) : p.trailing = false := by
  cases h <;> rfl

/-- A word that stands for itself is the mode, for no option waits for it. -/
theorem Gives.read_mode {word : String} (h : p.Gives given) (hn : given.mode = none)
    (hw : IsPlain word) : p.read word = .ok ⟨{ given with mode := some word }, none, false⟩ := by
  have hpositional : p.positional word = .ok ⟨{ given with mode := some word }, none, false⟩ := by
    rw [Progress.positional, h.mode_eq, hn, h.settled_eq]
    rfl
  rw [Progress.read, h.trailing_eq, ofText_of_isPlain hw]
  cases h <;> exact hpositional

theorem ofName?_name (option : ValueOption) : ValueOption.ofName? option.name = some option := by
  cases option <;> rfl

theorem Gives.read_long {option : ValueOption} (h : p.Gives given) :
    p.read option.long = .ok ⟨given, some (option, none), false⟩ := by
  rw [Progress.read, h.trailing_eq, ofText_long]
  simp only [Progress.long, ofName?_name, h.settled_eq]
  rfl

theorem Gives.read_equals {option : ValueOption} {value : String} (h : p.Gives given)
    (hn : option.get given = none) (hv : value ≠ "") :
    p.read (option.long ++ "=" ++ value) = .ok ⟨option.set value given, none, false⟩ := by
  rw [Progress.read, h.trailing_eq, ofText_equals]
  simp only [Progress.long, ofName?_name, h.settled_eq, bind, Except.bind, settle_some hn hv]
  rfl

theorem read_value {option : ValueOption} {value : String} (hv : IsPlain value) :
    Progress.read ⟨given, some (option, none), false⟩ value =
      .ok ⟨given, some (option, some value), false⟩ := by
  rw [Progress.read, ofText_of_isPlain hv]
  rfl

/-- The words of one item add it. -/
theorem Gives.foldlM_words {item : Item} {words : List String} (h : p.Gives given)
    (hn : about given item.subject = none) (hw : item.Words words) :
    ∃ p', words.foldlM Progress.read p = .ok p' ∧ p'.Gives (item.add given) := by
  cases hw with
  | mode hw =>
    refine ⟨_, ?_, .settled _⟩
    rw [List.foldlM_cons, h.read_mode hn hw]
    rfl
  | next hv hplain =>
    refine ⟨_, ?_, .pending hn hv⟩
    rw [List.foldlM_cons, h.read_long]
    show List.foldlM _ _ _ = _
    rw [List.foldlM_cons, read_value hplain]
    rfl
  | equals hv =>
    refine ⟨_, ?_, .settled _⟩
    rw [List.foldlM_cons, h.read_equals hn hv]
    rfl

/-- So do those of several, each about something else. -/
theorem Gives.foldlM_flatten {said : List Item} {parts : List (List String)} (h : p.Gives given)
    (hw : List.Forall₂ Item.Words said parts) (hn : ∀ item ∈ said, about given item.subject = none)
    (hd : said.Pairwise Item.Apart) :
    ∃ p', parts.flatten.foldlM Progress.read p = .ok p' ∧ p'.Gives (said.foldl Item.add given) := by
  induction hw generalizing p given with
  | nil => exact ⟨p, rfl, h⟩
  | @cons item words said parts hitem _ ih =>
    obtain ⟨hapart, hd⟩ := List.pairwise_cons.mp hd
    obtain ⟨p₁, h₁, hg₁⟩ := h.foldlM_words (hn item List.mem_cons_self) hitem
    obtain ⟨p₂, h₂, hg₂⟩ := ih hg₁
      (fun other ho => (about_add_of_ne given (hapart other ho)).trans (hn other (.tail _ ho))) hd
    refine ⟨p₂, ?_, hg₂⟩
    rw [List.flatten_cons, List.foldlM_append, h₁]
    exact h₂

end Progress

/-! ### Reading command lines -/

theorem foldlM_of_says {line : Arguments} {words : List String} (h : Says line words) :
    ∃ p, words.foldlM Progress.read {} = .ok p ∧ p.Gives line := by
  obtain ⟨said, parts, hperm, hwords, rfl⟩ := h
  have hd : said.Pairwise Item.Apart :=
    (hperm.pairwise_iff fun h => symm_of Item.Apart h).mpr (pairwise_items line)
  have hn : ∀ item ∈ said, about {} item.subject = none := by
    intro item _
    rcases item with word | ⟨_ | _, value⟩ <;> rfl
  obtain ⟨p, hp, hg⟩ := (Progress.Gives.settled {}).foldlM_flatten hwords hn hd
  rw [foldl_add_of_perm hperm] at hg
  exact ⟨p, hp, hg⟩

/-- An option that is provided has its value, and nothing else has changed. -/
theorem fromVariable_of_provided {option : ValueOption} {given : Arguments}
    {value held : Option String} (h : Provided value (option.get given) held) :
    ∃ given', fromVariable option held given = .ok given' ∧ option.get given' = value ∧
      ∀ subject, subject ≠ some option → about given' subject = about given subject := by
  generalize hg : option.get given = own at h
  cases h with
  | onLine hv => exact ⟨given, by simp [fromVariable, hg], by rw [hg, hv], fun _ _ => rfl⟩
  | inVariable hv =>
    cases value with
    | none => exact ⟨given, by simp [fromVariable, hg], hg, fun _ _ => rfl⟩
    | some value =>
      have hv : value ≠ "" := fun h => hv (congrArg some h)
      refine ⟨option.set value given, ?_, ?_, fun subject hs => ?_⟩
      · simp [fromVariable, hg, Progress.settle_some hg hv]
      · cases option <;> rfl
      · have hapart : (Item.setting option value).subject ≠ subject := hs.symm
        exact about_add_of_ne given hapart

theorem eq_of_about {given given' : Arguments} (h : ∀ subject, about given subject = about given' subject) :
    given = given' := by
  obtain ⟨mode, machines, input⟩ := given
  obtain rfl : mode = given'.mode := h none
  obtain rfl : machines = given'.machines := h (some .machines)
  obtain rfl : input = given'.input := h (some .input)
  rfl

/-- **Arguments that are handed over are read.** -/
theorem read_of_handed {args : Arguments} {environment : Environment} {words : List String}
    (h : Handed args environment words) : read environment words = .ok args := by
  obtain ⟨line, hsays, hmode, hprovided⟩ := h
  obtain ⟨p, hp, hg⟩ := foldlM_of_says hsays
  obtain ⟨one, hone, hmachines, hother⟩ := fromVariable_of_provided (hprovided .machines)
  have hinput : Provided args.input (ValueOption.input.get one) environment.input := by
    have hsame : ValueOption.input.get one = ValueOption.input.get line :=
      hother (some .input) (by simp)
    rw [hsame]
    exact hprovided .input
  obtain ⟨both, hboth, hinput', hother'⟩ := fromVariable_of_provided hinput
  obtain rfl : both = args := by
    refine eq_of_about fun subject => ?_
    rcases subject with _ | _ | _
    · rw [hother' _ (by simp), hother _ (by simp)]
      exact hmode
    · rw [hother' _ (by simp)]
      exact hmachines
    · exact hinput'
  rw [read, hp]
  show (p.settled >>= _) = _
  rw [hg.settled_eq]
  show (fromVariable .machines environment.machines line >>= _) = _
  have hone : fromVariable .machines environment.machines line = .ok one := hone
  rw [hone]
  exact hboth

end BuildFleet.CommandLine
