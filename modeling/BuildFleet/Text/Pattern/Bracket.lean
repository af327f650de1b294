import BuildFleet.Text.Pattern.Atom

/-!
# Patterns — bracketed classes

A class in brackets has members: characters, ranges of them, classes by name, and classes in brackets
of their own.  Two of the marks `&`, `-` and `~` in a row stand between two sets of members.

At the head of a class, behind a caret for its complement, hyphens stand for themselves, and so does
a closing bracket if it comes first.

How deep the classes and sets are nested is counted, because a pattern may not be too deep.
-/

namespace BuildFleet.Text.Pattern

/-- The depth of parts next to each other: more than one make a level of their own. -/
def depthOfAll : List Nat → Nat
  | [] => 0
  | [depth] => depth
  | depths => 1 + depths.foldl max 0

/-- A class that is not closed yet. -/
structure Bracket where
  /-- The depths of the members of the last set. -/
  members : List Nat := []
  /-- The depth of the sets before it. -/
  before : Option Nat := none
  /-- Only hyphens have been read. -/
  atHead : Bool := true

namespace Bracket

/-- The depth of the sets. -/
def depth (b : Bracket) : Nat :=
  match b.before with
  | none => depthOfAll b.members
  | some before => 1 + max before (depthOfAll b.members)

/-- One more member. -/
def add (b : Bracket) (depth : Nat) : Bracket :=
  { b with members := depth :: b.members, atHead := false }

/-- One more set. -/
def addSet (b : Bracket) : Bracket :=
  { members := [], before := some b.depth, atHead := false }

end Bracket

/-- The names of classes of ASCII characters. -/
def classNames : List String :=
  ["alnum", "alpha", "ascii", "blank", "cntrl", "digit", "graph", "lower", "print", "punct",
   "space", "upper", "word", "xdigit"]

/-- A class by name, after its opening bracket: whether it is a complement, and the rest. -/
def readNamedClass : List Char → Option (Bool × List Char)
  | ':' :: rest =>
    let (complement, rest) :=
      match rest with
      | '^' :: rest => (true, rest)
      | rest => (false, rest)
    let name := String.ofList (rest.takeWhile (· != ':'))
    match rest.dropWhile (· != ':') with
    | ':' :: ']' :: rest => if classNames.contains name then some (complement, rest) else none
    | _ => none
  | _ => none

/-- A class by name has a meaning with these flags. -/
def namedClassHasMeaning (flags : Flags) (complement : Bool) : Bool :=
  if flags.unicode then !flags.caseless else !complement

/-- A new class, after its opening bracket and the caret if it is a complement. -/
def openBracket (flags : Flags) (text : List Char) : Option (Bracket × List Char) :=
  match flags.skip text with
  | '^' :: rest => if flags.unicode then some ({}, rest) else none
  | text => some ({}, text)

/-- The member of a class at the front of a text. -/
def readMember (flags : Flags) (text : List Char) : Option (Atom × List Char) :=
  match text with
  | '\\' :: rest => readEscape flags rest
  | c :: rest => some (.literal c false, rest)
  | [] => none

/-- The character that decides whether a hyphen begins a range: the next one that is not blank. -/
def afterHyphen (flags : Flags) (text : List Char) : Option Char :=
  let solid :=
    match text.dropWhile blank.contains with
    | '#' :: rest => rest.dropWhile blank.contains
    | text => text
  if flags.spaced then solid.head? <|> text.head? else text.head?

/-- The last character of a range that begins with an atom. -/
def readRangeEnd (flags : Flags) (first : Atom) (text : List Char) : Option (List Char) := do
  let (last, rest) ← readMember flags (flags.skip text)
  match first, last with
  | .literal a _, .literal b _ =>
    if a ≤ b && first.hasMeaningInClass flags && last.hasMeaningInClass flags then some rest
    else none
  | _, _ => none

/-- A member or a range: the rest after it. -/
def readItem (flags : Flags) (text : List Char) : Option (List Char) := do
  let (first, rest) ← readMember flags text
  match flags.skip rest with
  | '-' :: rest =>
    if afterHyphen flags rest == some ']' || afterHyphen flags rest == some '-' then
      if first.hasMeaningInClass flags then some ('-' :: rest) else none
    else
      readRangeEnd flags first rest
  | rest => if first.hasMeaningInClass flags then some rest else none

/-- The character at the front of a text joins two sets if it stands there twice. -/
def isSetMark (c : Char) (rest : List Char) : Bool :=
  (c == '&' || c == '-' || c == '~') && rest.head? == some c

/-- The depth of the outermost class, and the rest after it.  The classes that are open around the
innermost one are in order, and no more characters are read than the fuel allows. -/
def readBrackets (flags : Flags) : (fuel : Nat) → (inner : Bracket) → (outer : List Bracket) →
    List Char → Option (Nat × List Char)
  | 0, _, _, _ => none
  | fuel + 1, inner, outer, text =>
    let bare := Atom.literal '-' false
    match flags.skip text with
    | [] => none
    | c :: rest =>
      if inner.atHead && (c == '-' || (c == ']' && inner.members.isEmpty)) then
        if bare.hasMeaningInClass flags then
          readBrackets flags fuel { inner.add 0 with atHead := c == '-' } outer rest
        else
          none
      else if c == '[' then
        match readNamedClass rest with
        | some (complement, rest) =>
          if namedClassHasMeaning flags complement then
            readBrackets flags fuel (inner.add 0) outer rest
          else
            none
        | none => do
          let (bracket, rest) ← openBracket flags rest
          readBrackets flags fuel bracket (inner :: outer) rest
      else if c == ']' then
        let depth := 1 + inner.depth
        match outer with
        | [] => some (depth, rest)
        | bracket :: outer => readBrackets flags fuel (bracket.add depth) outer rest
      else if isSetMark c rest then
        readBrackets flags fuel inner.addSet outer (rest.drop 1)
      else do
        let rest ← readItem flags (c :: rest)
        readBrackets flags fuel (inner.add 0) outer rest

/-- The depth of a class, after its opening bracket, and the rest after it. -/
def readClass (flags : Flags) (text : List Char) : Option (Nat × List Char) := do
  let (bracket, rest) ← openBracket flags text
  readBrackets flags (text.length + 1) bracket [] rest

end BuildFleet.Text.Pattern
