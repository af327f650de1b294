import Mathlib.Data.List.TakeWhile
import BuildFleet.Json.Literal

/-!
# JSON — the grammar

What a JSON text looks like, said without the readers.  There are two grammars of values, because a
value that is only passed over has to satisfy less than one that is read.

* `Value` are the values of RFC 8259 of any depth and size.  Their strings (`RawBody`) are bytes and
  escapes; the bytes need not be UTF-8, and the code units of escapes need not come in pairs.
* `StringLiteral` are the strings that are read: a spelling of each character after the other
  (`Spelling`), by itself, by a short escape, by its code unit, or by a surrogate pair.
* `Separated` and `Enclosed` are lists of items between brackets, with commas between them and blanks
  around them.  An object that is read is a list of members (`Member`), each with its key decoded
  and the text of its value.
-/

namespace BuildFleet.Json

/-- Nothing but blanks. -/
def Blanks (gap : Bytes) : Prop :=
  ∀ b ∈ gap, isBlank b = true

/-! ### Words -/

def nullWord : Bytes := letterN :: restOfNull

def trueWord : Bytes := letterT :: restOfTrue

def falseWord : Bytes := letterF :: restOfFalse

/-! ### Escapes -/

/-- A hexadecimal digit, in either case, and its value. -/
inductive HexDigit : UInt8 → Nat → Prop where
  | decimal {n : Nat} : n < 10 → HexDigit (UInt8.ofNat (0x30 + n)) n
  | lower {n : Nat} : n < 6 → HexDigit (UInt8.ofNat (0x61 + n)) (10 + n)
  | upper {n : Nat} : n < 6 → HexDigit (UInt8.ofNat (0x41 + n)) (10 + n)

/-- Four hexadecimal digits, and the code unit of which they are the digits. -/
inductive HexUnit : Bytes → Nat → Prop where
  | digits {a b c d : UInt8} {i j k l : Nat} : HexDigit a i → HexDigit b j → HexDigit c k →
      HexDigit d l → HexUnit [a, b, c, d] (0x1000 * i + 0x100 * j + 0x10 * k + l)

/-- The letters of the short escapes, and the characters they stand for. -/
def shortEscapes : List (UInt8 × Char) :=
  [(quote, '"'), (backslash, '\\'), (0x2f, '/'), (0x62, '\x08'), (0x66, '\x0c'), (0x6e, '\n'),
   (0x72, '\r'), (0x74, '\t')]

/-! ### Strings that are read -/

/-- The escapes of a character by code units, after the letter `u`. -/
inductive UnitEscape : Char → Bytes → Prop where
  | unit {c : Char} {digits : Bytes} : HexUnit digits c.toNat → UnitEscape c digits
  /-- By a leading and a trailing surrogate. -/
  | pair {c : Char} {high low : Bytes} {leading trailing : Nat} :
      HexUnit high leading → HexUnit low trailing →
      0xd800 ≤ leading → leading ≤ 0xdbff → 0xdc00 ≤ trailing → trailing ≤ 0xdfff →
      c.toNat = 0x10000 + (leading - 0xd800) * 0x400 + (trailing - 0xdc00) →
      UnitEscape c (high ++ backslash :: letterU :: low)

/-- The escapes of a character, after their backslash. -/
inductive Escape : Char → Bytes → Prop where
  | short {c : Char} {letter : UInt8} : (letter, c) ∈ shortEscapes → Escape c [letter]
  | units {c : Char} {text : Bytes} : UnitEscape c text → Escape c (letterU :: text)

/-- The spellings of a character inside a string. -/
inductive CharSpelling : Char → Bytes → Prop where
  /-- By itself, unless it is a control character, a quote or a backslash. -/
  | plain {c : Char} : 0x20 ≤ c.toNat → c ≠ '"' → c ≠ '\\' →
      CharSpelling c (String.utf8EncodeChar c)
  | escaped {c : Char} {text : Bytes} : Escape c text → CharSpelling c (backslash :: text)

/-- The spellings of a text inside a string: its characters, each spelled in some way. -/
inductive Spelling : List Char → Bytes → Prop where
  | nil : Spelling [] []
  | cons {c : Char} {cs : List Char} {text more : Bytes} : CharSpelling c text → Spelling cs more →
      Spelling (c :: cs) (text ++ more)

/-- The spellings of a string between its quotes, with them. -/
inductive StringLiteral : String → Bytes → Prop where
  | quoted {s : String} {body : Bytes} : Spelling s.toList body →
      StringLiteral s (quote :: body ++ [quote])

/-- The spelling of a truth value. -/
inductive BooleanLiteral : Bool → Bytes → Prop where
  | yes : BooleanLiteral true trueWord
  | no : BooleanLiteral false falseWord

/-- `null` for none, or the spelling of a value. -/
inductive OrNull {α : Type} (Spells : α → Bytes → Prop) : Option α → Bytes → Prop where
  | null : OrNull Spells none nullWord
  | value {v : α} {text : Bytes} : Spells v text → OrNull Spells (some v) text

/-! ### Values that are passed over -/

/-- The escapes in a string of which nothing is wanted, after their backslash. -/
inductive RawEscape : Bytes → Prop where
  | short {letter : UInt8} : letter ∈ shortEscapes.map Prod.fst → RawEscape [letter]
  | unit {digits : Bytes} {n : Nat} : HexUnit digits n → RawEscape (letterU :: digits)

/-- A byte that stands for itself in a string. -/
def PlainByte (b : UInt8) : Prop :=
  0x20 ≤ b ∧ b ≠ quote ∧ b ≠ backslash

/-- The inside of a string of which nothing is wanted. -/
inductive RawBody : Bytes → Prop where
  | nil : RawBody []
  | byte {b : UInt8} {more : Bytes} : PlainByte b → RawBody more → RawBody (b :: more)
  | escape {text more : Bytes} : RawEscape text → RawBody more →
      RawBody (backslash :: text ++ more)

/-- One digit or more. -/
def Digits (ds : Bytes) : Prop :=
  ds ≠ [] ∧ ∀ d ∈ ds, isDigit d = true

/-- The integer part of a number: zero, or digits of which the first is not zero. -/
inductive Whole : Bytes → Prop where
  | zero : Whole [zeroDigit]
  | digits {d : UInt8} {ds : Bytes} : d ≠ zeroDigit → Digits (d :: ds) → Whole (d :: ds)

/-- A fraction, or nothing. -/
inductive Fraction : Bytes → Prop where
  | none : Fraction []
  | digits {ds : Bytes} : Digits ds → Fraction (point :: ds)

/-- An exponent, or nothing. -/
inductive Exponent : Bytes → Prop where
  | none : Exponent []
  | digits {letter : UInt8} {sign ds : Bytes} : isExponentLetter letter = true →
      sign ∈ [[], [plusSign], [minusSign]] → Digits ds → Exponent (letter :: sign ++ ds)

/-- A number without its minus. -/
inductive Magnitude : Bytes → Prop where
  | parts {whole fraction exponent : Bytes} : Whole whole → Fraction fraction → Exponent exponent →
      Magnitude (whole ++ fraction ++ exponent)

/-- A key of which nothing is wanted, with the blanks around it and its colon. -/
inductive RawKey : Bytes → Prop where
  | quoted {before body after : Bytes} : Blanks before → RawBody body → Blanks after →
      RawKey (before ++ quote :: body ++ quote :: after ++ [colon])

/-- What a phrase is: a value, or what stands between the brackets of one. -/
inductive Part where
  | value
  | elements
  | members

/-- The phrases of JSON.  A value has no blanks around it; elements and members have. -/
inductive Phrase : Part → Bytes → Prop where
  | null : Phrase .value nullWord
  | true : Phrase .value trueWord
  | false : Phrase .value falseWord
  | positive {text : Bytes} : Magnitude text → Phrase .value text
  | negative {text : Bytes} : Magnitude text → Phrase .value (minusSign :: text)
  | string {body : Bytes} : RawBody body → Phrase .value (quote :: body ++ [quote])
  | emptyList {gap : Bytes} : Blanks gap → Phrase .value (openBracket :: gap ++ [closeBracket])
  | list {body : Bytes} : Phrase .elements body →
      Phrase .value (openBracket :: body ++ [closeBracket])
  | emptyObject {gap : Bytes} : Blanks gap → Phrase .value (openBrace :: gap ++ [closeBrace])
  | object {body : Bytes} : Phrase .members body → Phrase .value (openBrace :: body ++ [closeBrace])
  | lastElement {before text after : Bytes} : Blanks before → Phrase .value text → Blanks after →
      Phrase .elements (before ++ text ++ after)
  | element {before text after more : Bytes} : Blanks before → Phrase .value text → Blanks after →
      Phrase .elements more → Phrase .elements (before ++ text ++ after ++ comma :: more)
  | lastMember {key before text after : Bytes} : RawKey key → Blanks before → Phrase .value text →
      Blanks after → Phrase .members (key ++ before ++ text ++ after)
  | member {key before text after more : Bytes} : RawKey key → Blanks before →
      Phrase .value text → Blanks after → Phrase .members more →
      Phrase .members (key ++ before ++ text ++ after ++ comma :: more)

/-- A value of any kind. -/
abbrev Value : Bytes → Prop := Phrase .value

/-! ### Lists that are read -/

/-- Items with commas between them, and blanks around each. -/
inductive Separated {β : Type} (Spells : β → Bytes → Prop) : List β → Bytes → Prop where
  | last {v : β} {before text after : Bytes} : Blanks before → Spells v text → Blanks after →
      Separated Spells [v] (before ++ text ++ after)
  | cons {v : β} {vs : List β} {before text after more : Bytes} : Blanks before → Spells v text →
      Blanks after → Separated Spells vs more →
      Separated Spells (v :: vs) (before ++ text ++ after ++ comma :: more)

/-- Items between brackets. -/
inductive Enclosed {β : Type} (Spells : β → Bytes → Prop) (opening closing : UInt8) :
    List β → Bytes → Prop where
  | none {gap : Bytes} : Blanks gap → Enclosed Spells opening closing [] (opening :: gap ++ [closing])
  | some {vs : List β} {body : Bytes} : Separated Spells vs body →
      Enclosed Spells opening closing vs (opening :: body ++ [closing])

/-- A member of an object: its key, and the text of its value. -/
inductive Member : String × Bytes → Bytes → Prop where
  | colon {key : String} {literal before after text : Bytes} : StringLiteral key literal →
      Blanks before → Blanks after →
      Member (key, text) (literal ++ before ++ colon :: after ++ text)

/-- A list of values. -/
abbrev ListText {α : Type} (Spells : α → Bytes → Prop) : List α → Bytes → Prop :=
  Enclosed Spells openBracket closeBracket

/-- An object, by its members. -/
abbrev ObjectText : List (String × Bytes) → Bytes → Prop :=
  Enclosed Member openBrace closeBrace

/-- Members under keys that are not known have any value. -/
def Others (Known : String → Prop) (members : List (String × Bytes)) : Prop :=
  ∀ m ∈ members, ¬ Known m.1 → Value m.2

/-- What the members say of a field: it has the default if none of them has its key, and otherwise
the value that is spelled by the only one that has. -/
inductive FieldText {β : Type} (key : String) (Spells : β → Bytes → Prop) (default : β)
    (members : List (String × Bytes)) : β → Prop where
  | absent : (∀ m ∈ members, m.1 ≠ key) → FieldText key Spells default members default
  | present {v : β} {text : Bytes} : members.filter (·.1 = key) = [(key, text)] → Spells v text →
      FieldText key Spells default members v

/-! ### Blanks in front -/

theorem blanks_nil : Blanks [] := fun _ h => nomatch h

theorem Blanks.append {xs ys : Bytes} (hx : Blanks xs) (hy : Blanks ys) : Blanks (xs ++ ys) :=
  fun b hb => (List.mem_append.mp hb).elim (hx b) (hy b)

theorem blanks_append_iff {xs ys : Bytes} : Blanks (xs ++ ys) ↔ Blanks xs ∧ Blanks ys :=
  List.forall_mem_append

/-- There are no blanks in front of a byte that is none. -/
theorem Blanks.eq_nil {gap xs ys : Bytes} {b : UInt8} (hg : Blanks gap) (hb : isBlank b = false)
    (h : b :: xs = gap ++ ys) : gap = [] := by
  cases gap with
  | nil => rfl
  | cons c gap =>
    obtain ⟨rfl, -⟩ := List.cons.inj h
    have hblank := hg b List.mem_cons_self
    rw [hb] at hblank
    cases hblank

theorem skipBlanks_append {gap : Bytes} (h : Blanks gap) (bytes : Bytes) :
    skipBlanks (gap ++ bytes) = skipBlanks bytes :=
  List.dropWhile_append_of_pos h

theorem skipBlanks_of_not_blank {b : UInt8} (h : isBlank b = false) (bytes : Bytes) :
    skipBlanks (b :: bytes) = b :: bytes := by
  rw [skipBlanks, List.dropWhile_cons_of_neg (by rw [h]; exact Bool.false_ne_true)]

theorem skipBlanks_gap {gap : Bytes} {b : UInt8} (h : Blanks gap) (hb : isBlank b = false)
    (bytes : Bytes) : skipBlanks (gap ++ b :: bytes) = b :: bytes := by
  rw [skipBlanks_append h, skipBlanks_of_not_blank hb]

/-- The blanks that are skipped. -/
theorem exists_gap (bytes : Bytes) : ∃ gap, Blanks gap ∧ bytes = gap ++ skipBlanks bytes :=
  ⟨bytes.takeWhile isBlank, fun _ h => List.mem_takeWhile_imp h,
    (List.takeWhile_append_dropWhile ..).symm⟩

theorem skipBlanks_eq_nil_iff {bytes : Bytes} : skipBlanks bytes = [] ↔ Blanks bytes :=
  List.dropWhile_eq_nil_iff

theorem skipBlanks_eq_cons_iff {bytes rest : Bytes} {b : UInt8} :
    skipBlanks bytes = b :: rest ↔
      isBlank b = false ∧ ∃ gap, Blanks gap ∧ bytes = gap ++ b :: rest := by
  refine ⟨?_, ?_⟩
  · intro h
    have hb := List.head?_dropWhile_not isBlank bytes
    obtain ⟨gap, hg, he⟩ := exists_gap bytes
    rw [skipBlanks] at h
    rw [h] at hb
    exact ⟨hb, gap, hg, h ▸ he⟩
  · rintro ⟨hb, gap, hg, rfl⟩
    exact skipBlanks_gap hg hb rest

theorem skipBlanks_skipBlanks (bytes : Bytes) : skipBlanks (skipBlanks bytes) = skipBlanks bytes := by
  cases h : skipBlanks bytes with
  | nil => rfl
  | cons b rest => rw [skipBlanks_of_not_blank (skipBlanks_eq_cons_iff.mp h).1]

end BuildFleet.Json
