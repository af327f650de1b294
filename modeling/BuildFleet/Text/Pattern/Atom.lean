import BuildFleet.Text.Blank

/-!
# Patterns — atoms

An atom is the smallest part of a regular expression: a character, an escape, a point or an anchor.
The flags in force where it stands decide whether it has a meaning.

Patterns are read here without the tables of Unicode properties.  What would need them has no
meaning: matching letters in either case, the shorthand classes of digits, spaces and word
characters, and classes by a property.  With the flag `unicode` cleared the first two are about ASCII
and need no tables.  Then, however, nothing may match a byte that is no character of its own, as the
complement of a class, a point or a byte beyond ASCII would.  A boundary of words has a meaning only
with the flag cleared.
-/

namespace BuildFleet.Text.Pattern

/-- The flags that decide about meaning. -/
structure Flags where
  /-- Letters match in either case. -/
  caseless : Bool := false
  /-- Characters are matched, and not bytes. -/
  unicode : Bool := true
  /-- Blank characters and comments between the parts are passed over. -/
  spaced : Bool := false
  deriving DecidableEq

inductive Atom where
  /-- A character, perhaps written as a byte. -/
  | literal (c : Char) (byte : Bool)
  /-- A class by its letter, or what it leaves out. -/
  | shorthand (complement : Bool)
  /-- Any character but a line feed. -/
  | any
  /-- The beginning or the end of a line or a text. -/
  | anchor
  | wordBoundary
  deriving DecidableEq

/-- The atom has a meaning with these flags. -/
def Atom.hasMeaning (flags : Flags) : Atom → Bool
  | .literal c byte => if flags.unicode then !flags.caseless else !byte || c.toNat < 0x80
  | .shorthand complement => !flags.unicode && !complement
  | .any => flags.unicode
  | .anchor => true
  | .wordBoundary => !flags.unicode

/-- The atom has a meaning as a member of a class. -/
def Atom.hasMeaningInClass (flags : Flags) : Atom → Bool
  | .literal c _ => if flags.unicode then !flags.caseless else c.toNat < 0x80
  | .shorthand complement => !flags.unicode && !complement
  | .any | .anchor | .wordBoundary => false

/-! ### Blank characters -/

/-- The text from the first character on that is neither blank nor in a comment, which begins with
a number sign and ends with the line. -/
def dropSpaces (inComment : Bool) : List Char → List Char
  | [] => []
  | c :: rest =>
    if inComment then dropSpaces (c != '\n') rest
    else if blank.contains c then dropSpaces false rest
    else if c == '#' then dropSpaces true rest
    else c :: rest

/-- The text from the next part on. -/
def Flags.skip (flags : Flags) (text : List Char) : List Char :=
  if flags.spaced then dropSpaces false text else text

/-! ### Escapes -/

/-- The value of a hexadecimal digit. -/
def digit? (c : Char) : Option Nat :=
  if '0' ≤ c && c ≤ '9' then some (c.toNat - '0'.toNat)
  else if 'a' ≤ c && c ≤ 'f' then some (c.toNat - 'a'.toNat + 10)
  else if 'A' ≤ c && c ≤ 'F' then some (c.toNat - 'A'.toNat + 10)
  else none

/-- A number of so many hexadecimal digits, after the value of those before. -/
def readDigits (flags : Flags) : (digits value : Nat) → List Char → Option (Nat × List Char)
  | 0, value, text => some (value, text)
  | digits + 1, value, text =>
    match flags.skip text with
    | [] => none
    | c :: rest => do readDigits flags digits (16 * value + (← digit? c)) rest

/-- The number of digits of a code point after this letter. -/
def digitsAfter? (c : Char) : Option Nat :=
  if c == 'x' then some 2
  else if c == 'u' then some 4
  else if c == 'U' then some 8
  else none

/-- The atom of an escape of one character.  A punctuation mark or a control character stands for
itself, and a letter without a meaning of its own for nothing. -/
def shortEscape? (c : Char) : Option Atom :=
  match c with
  | 'a' => some (.literal '\x07' false)
  | 'f' => some (.literal '\x0c' false)
  | 't' => some (.literal '\t' false)
  | 'n' => some (.literal '\n' false)
  | 'r' => some (.literal '\r' false)
  | 'v' => some (.literal '\x0b' false)
  | 'd' | 's' | 'w' => some (.shorthand false)
  | 'D' | 'S' | 'W' => some (.shorthand true)
  | 'A' | 'z' => some .anchor
  | 'b' | 'B' | '<' | '>' => some .wordBoundary
  | c => if c.toNat < 0x80 && !c.isAlphanum then some (.literal c false) else none

/-- The atom of an escape, after its backslash. -/
def readEscape (flags : Flags) : List Char → Option (Atom × List Char)
  | [] => none
  | c :: rest =>
    match digitsAfter? c with
    | some digits => do
      let (n, rest) ← readDigits flags digits 0 rest
      if n.isValidChar then some (.literal (Char.ofNat n) (c == 'x'), rest) else none
    | none => (shortEscape? c).map (·, rest)

/-- The atom at the front of a text. -/
def readAtom (flags : Flags) : List Char → Option (Atom × List Char)
  | [] => none
  | '\\' :: rest => readEscape flags rest
  | '.' :: rest => some (.any, rest)
  | '^' :: rest | '$' :: rest => some (.anchor, rest)
  | c :: rest => some (.literal c false, rest)

end BuildFleet.Text.Pattern
