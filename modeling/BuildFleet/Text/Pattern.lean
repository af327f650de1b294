import BuildFleet.Text.Alphanumeric
import BuildFleet.Text.Numeral
import BuildFleet.Text.Pattern.Bracket

/-!
# Patterns

Whether a text is a regular expression with a meaning (`isPattern`).

A pattern is a sequence of parts, or several of them with bars in between.  A part is an atom, a
bracketed class, a group in parentheses, or a part that is repeated.  A group may have a name, or set
and clear flags; a group of flags alone sets them for what follows in the group around it, and cannot
be repeated.  Repetitions by a count are not read: their closing brace stands for the end of the
field that a pattern is written in.

Of a pattern only the depth is kept, which may not be more than `maxDepth`.
-/

namespace BuildFleet.Text.Pattern

/-- The greatest depth of a pattern. -/
def maxDepth : Nat := 250

/-! ### Groups -/

/-- The flags in force after these letters, of which those behind a hyphen clear a flag. -/
def Flags.after (flags : Flags) (letters : List Char) : Flags :=
  let now (letter : Char) (before : Bool) : Bool :=
    if (letters.takeWhile (· != '-')).contains letter then true
    else before && !letters.contains letter
  { caseless := now 'i' flags.caseless
    unicode := now 'u' flags.unicode
    spaced := now 'x' flags.spaced }

/-- The letters name flags, each once, with at most one hyphen before some of them. -/
def areFlags (letters : List Char) : Bool :=
  letters.all ['i', 'm', 's', 'U', 'u', 'R', 'x', '-'].contains &&
    letters.Nodup && letters.getLast? != some '-'

/-- The text is a name of a group: letters, digits and some marks, not beginning with a digit. -/
def isGroupName (name : List Char) : Bool :=
  match name with
  | [] => false
  | c :: rest =>
    (c == '_' || (alphanumeric.contains c && !numeral.contains c)) &&
      rest.all fun c =>
        c == '_' || c == '.' || c == '[' || c == ']' || alphanumeric.contains c

/-- What an opening parenthesis begins. -/
inductive Opening where
  /-- A group, perhaps with flags of its own. -/
  | group (flags : Flags)
  | named (name : List Char)
  /-- No group, but other flags from here on. -/
  | flags (flags : Flags)
  deriving DecidableEq

/-- A name up to its closing mark. -/
def readName (text : List Char) : Option (Opening × List Char) :=
  let name := text.takeWhile (· != '>')
  match text.dropWhile (· != '>') with
  | _ :: rest => if isGroupName name then some (.named name, rest) else none
  | [] => none

/-- Flags up to a colon or a closing parenthesis. -/
def readFlags (flags : Flags) (text : List Char) : Option (Opening × List Char) :=
  let letters := text.takeWhile fun c => c != ':' && c != ')'
  match text.dropWhile fun c => c != ':' && c != ')' with
  | [] => none
  | c :: rest =>
    if !areFlags letters then none
    else if c == ':' then some (.group (flags.after letters), rest)
    else if letters.isEmpty then none
    else some (.flags (flags.after letters), rest)

/-- What begins after an opening parenthesis. -/
def readOpening (flags : Flags) (text : List Char) : Option (Opening × List Char) :=
  match flags.skip text with
  | '?' :: 'P' :: '<' :: rest | '?' :: '<' :: rest => readName rest
  | '?' :: rest => readFlags flags rest
  | text => some (.group flags, text)

/-! ### Sequences -/

/-- A part of a sequence: its depth, and whether it can be repeated. -/
structure Part where
  depth : Nat
  repeatable : Bool := true

/-- The parts read so far, the last one first, and the depths of the alternatives before them. -/
structure Sequence where
  parts : List Part := []
  before : List Nat := []

namespace Sequence

def add (s : Sequence) (part : Part) : Sequence :=
  { s with parts := part :: s.parts }

/-- The depth of the parts since the last bar. -/
def lastDepth (s : Sequence) : Nat :=
  depthOfAll (s.parts.map (·.depth))

/-- The depth of all alternatives. -/
def depth (s : Sequence) : Nat :=
  depthOfAll (s.lastDepth :: s.before)

/-- One more alternative. -/
def addBar (s : Sequence) : Sequence :=
  { parts := [], before := s.lastDepth :: s.before }

/-- The last part repeated. -/
def repeated? (s : Sequence) : Option Sequence :=
  match s.parts with
  | part :: parts =>
    if part.repeatable then some { s with parts := { depth := 1 + part.depth } :: parts } else none
  | [] => none

end Sequence

/-- How far a pattern has been read. -/
structure Progress where
  flags : Flags := {}
  /-- The names of groups so far. -/
  names : List (List Char) := []
  /-- The innermost sequence. -/
  inner : Sequence := {}
  /-- The sequences around it, each with the flags that are in force again behind the group. -/
  outer : List (Flags × Sequence) := []

namespace Progress

def add (p : Progress) (part : Part) : Progress :=
  { p with inner := p.inner.add part }

/-- A new group. -/
def enter (p : Progress) (flags : Flags) : Progress :=
  { p with flags, inner := {}, outer := (p.flags, p.inner) :: p.outer }

def begin? (p : Progress) (opening : Opening) : Option Progress :=
  match opening with
  | .group flags => some (p.enter flags)
  | .named name =>
    if p.names.contains name then none
    else some { p.enter p.flags with names := name :: p.names }
  | .flags flags => some { p.add { depth := 0, repeatable := false } with flags }

/-- The end of the innermost group. -/
def leave? (p : Progress) : Option Progress :=
  match p.outer with
  | [] => none
  | (flags, sequence) :: outer =>
    some { p with flags, outer, inner := sequence.add { depth := 1 + p.inner.depth } }

/-- Reads one part, or one mark between parts, which begins with the given character. -/
def read? (p : Progress) (c : Char) (rest : List Char) : Option (Progress × List Char) :=
  match c with
  | '(' => do
    let (opening, rest) ← readOpening p.flags rest
    let p ← p.begin? opening
    some (p, rest)
  | ')' => p.leave?.map (·, rest)
  | '|' => some ({ p with inner := p.inner.addBar }, rest)
  | '[' => do
    let (depth, rest) ← readClass p.flags rest
    some (p.add { depth }, rest)
  | '*' | '+' | '?' => do
    let inner ← p.inner.repeated?
    some ({ p with inner }, if rest.head? == some '?' then rest.drop 1 else rest)
  | '{' => none
  | _ => do
    let (atom, rest) ← readAtom p.flags (c :: rest)
    if atom.hasMeaning p.flags then some (p.add { depth := 0 }, rest) else none

/-- The depth of the pattern that begins like this and goes on with the text. -/
def depth? : (fuel : Nat) → Progress → List Char → Option Nat
  | 0, _, _ => none
  | fuel + 1, p, text =>
    match p.flags.skip text with
    | [] => if p.outer.isEmpty then some p.inner.depth else none
    | c :: rest => do
      let (p, rest) ← p.read? c rest
      depth? fuel p rest

end Progress

end Pattern

/-- The text is a regular expression with a meaning. -/
def isPattern (text : List Char) : Bool :=
  (Pattern.Progress.depth? (text.length + 1) {} text).any (· ≤ Pattern.maxDepth)

end BuildFleet.Text
