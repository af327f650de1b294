import BuildFleet.Event
import BuildFleet.LogFilter.Value
import BuildFleet.Text.Alphanumeric
import BuildFleet.Text.Blank

/-!
# Log filters

Which events are shown.  A filter is a list of directives with commas between them; each names a
level, or a target and a level, or a span and its fields as well.  An event is shown if the most
specific directive about its target allows its level.

The target of a directive stands for all targets that begin with it.  A directive without a level
allows every level, and one that is only a level is about every target.  A directive about a span, or
about the value of a field, never concerns an event outside of spans, and no event here is inside one.

Delimiters are looked for in the text of a directive without the blanks around it, but its parts are
cut out of the whole text, at the same distances in bytes.  With blanks in front such a cut can fall
inside of a character, and then the text is *torn*.
-/

namespace BuildFleet

/-- How far down a level is, from one. -/
def Level.rank : Level → Nat
  | .error => 1
  | .warn => 2
  | .info => 3
  | .debug => 4
  | .trace => 5

namespace LogFilter

/-- The least important rank that is shown; zero shows nothing. -/
abbrev Threshold := Nat

def Threshold.all : Threshold := 5

structure Directive where
  threshold : Threshold := .all
  target : Option String := none
  span : Option String := none
  /-- The names of fields, and the values wanted of them. -/
  fields : List (String × Option String) := []
  deriving DecidableEq

/-! ### Reading directives -/

def lower (text : List Char) : String :=
  String.ofList (text.map Char.toLower)

/-- A number from zero to five, with leading zeros or a plus if need be. -/
def thresholdOfNumber? (text : List Char) : Option Threshold :=
  let digits := match text with
    | '+' :: rest => rest
    | rest => rest
  if digits.isEmpty || !digits.all Char.isDigit then
    none
  else
    let n := digits.foldl (fun n c => 10 * n + (c.toNat - '0'.toNat)) 0
    if n ≤ 5 then some n else none

/-- A level by its name in either case, or by its rank. -/
def threshold? (text : List Char) : Option Threshold :=
  match thresholdOfNumber? text with
  | some n => some n
  | none =>
    match lower text with
    | "off" => some 0
    | "error" => some 1
    | "warn" => some 2
    | "info" => some 3
    | "debug" => some 4
    | "trace" => some 5
    | _ => none

/-- The level after an equals sign; none is every level. -/
def levelAfterEquals? (text : List Char) : Option Threshold :=
  if text.isEmpty then some .all else threshold? text

/-- Why a text is no filter. -/
inductive Flaw where
  | malformed
  /-- A part of it begins or ends inside of a character. -/
  | torn
  deriving DecidableEq

/-- A field by its name, or by its name and the value after an equals sign. -/
def field (text : List Char) : Except Flaw (String × Option String) :=
  let name := String.ofList (text.takeWhile (· != '='))
  match text.dropWhile (· != '=') with
  | [] => .ok (name, none)
  | _ :: rest =>
    let value := rest.takeWhile (· != '=')
    if isFieldValue value then .ok (name, some (String.ofList value)) else .error .malformed

/-- What is being read, and at which byte it began. -/
inductive State where
  | start
  | word (begin : Nat)
  | span (begin : Nat)
  | field (begin : Nat)
  | afterFields
  | afterSpan
  | level (begin : Nat)
  deriving DecidableEq

/-- A directive may begin with this character. -/
def isFirst (c : Char) : Bool :=
  c == '-' || c == ':' || c == '_' || Text.alphanumeric.contains c

/-- The characters of the first bytes, and those of the rest. -/
def splitBytes : Nat → List Char → Except Flaw (List Char × List Char)
  | 0, text => .ok ([], text)
  | _ + 1, [] => .error .torn
  | bytes + 1, c :: rest =>
    if c.utf8Size ≤ bytes + 1 then do
      let (before, after) ← splitBytes (bytes + 1 - c.utf8Size) rest
      .ok (c :: before, after)
    else
      .error .torn

/-- The characters from a byte on. -/
def cutFrom (text : List Char) (begin : Nat) : Except Flaw (List Char) := do
  let (_, after) ← splitBytes begin text
  .ok after

/-- The characters between two bytes. -/
def cut (text : List Char) (begin stop : Nat) : Except Flaw (List Char) := do
  let (before, _) ← splitBytes stop text
  cutFrom before begin

/-- The directive after one more character, which begins at the given byte. -/
def next (text : List Char) (state : State) (d : Directive) (c : Char) (place : Nat) :
    Except Flaw (State × Directive) :=
  match state with
  | .start =>
    if c == '[' then .ok (.span (place + 1), d)
    else if isFirst c then .ok (.word place, d)
    else .error .malformed
  | .word begin =>
    if c == '=' then do
      let target ← cut text begin place
      .ok (.level (place + 1), { d with target := some (String.ofList target) })
    else if c == '[' then do
      let target ← cut text begin place
      .ok (.span (place + 1), { d with target := some (String.ofList target) })
    else
      .ok (.word begin, d)
  | .span begin =>
    if c == ']' then do
      let name ← cut text begin place
      .ok (.afterSpan, { d with span := some (String.ofList name) })
    else if c == '{' then do
      let name ← cut text begin place
      let span := if name.isEmpty then none else some (String.ofList name)
      .ok (.field (place + 1), { d with span })
    else
      .ok (.span begin, d)
  | .field begin =>
    if c == '}' then do
      let part ← cut text begin place
      if part.isEmpty then
        .error .malformed
      else
        let added ← field part
        .ok (.afterFields, { d with fields := d.fields ++ [added] })
    else
      .ok (.field begin, d)
  | .afterFields => if c == ']' then .ok (.afterSpan, d) else .error .malformed
  | .afterSpan => if c == '=' then .ok (.level (place + 1), d) else .error .malformed
  | .level begin => .ok (.level begin, d)

/-- The directive after these characters, of which the first begins at the given byte. -/
def scan (text : List Char) (state : State) (d : Directive) :
    Nat → List Char → Except Flaw (State × Directive)
  | _, [] => .ok (state, d)
  | place, c :: rest => do
    let (state, d) ← next text state d c place
    scan text state d (place + c.utf8Size) rest

/-- A word alone is a level, or else a target of which every level is shown. -/
def directiveOfWord (text : List Char) : Directive :=
  if text.isEmpty then {}
  else
    match threshold? text with
    | some threshold => { threshold }
    | none => { target := some (String.ofList text) }

/-- The directive at the end of the text. -/
def finish (text : List Char) (state : State) (d : Directive) : Except Flaw Directive :=
  match state with
  | .word begin => do
    let word ← cutFrom text begin
    .ok (directiveOfWord word)
  | .level begin => do
    let level ← cutFrom text begin
    match levelAfterEquals? level with
    | some threshold => .ok { d with threshold }
    | none => .error .malformed
  | .afterSpan => .ok d
  | .start | .span _ | .field _ | .afterFields => .error .malformed

/-- The directive that a text spells. -/
def directive (text : List Char) : Except Flaw Directive := do
  let (state, d) ← scan text .start {} 0 (Text.trim text)
  finish text state d

end LogFilter

/-- Which events are shown. -/
structure LogFilter where
  directives : List LogFilter.Directive
  deriving DecidableEq

namespace LogFilter

/-- Warnings and errors of the parts named here. -/
def default : LogFilter where
  directives :=
    [{ threshold := 2, target := some "scw_cli" }, { threshold := 2, target := some "scw_core" }]

/-- The filter that a text spells. -/
def ofText (text : String) : Except Flaw LogFilter := do
  let parts := (text.toList.splitOn ',').filter (!·.isEmpty)
  let directives ← parts.mapM directive
  .ok ⟨directives⟩

/-- The filter of a variable: the default one if it is not set or malformed, and none if it is
torn. -/
def ofVariable? (held : Option String) : Option LogFilter :=
  match held.map ofText with
  | none | some (.error .malformed) => some default
  | some (.error .torn) => none
  | some (.ok filter) => some filter

/-! ### Events -/

/-- The directive is about events at all. -/
def Directive.isStatic (d : Directive) : Bool :=
  d.span.isNone && d.fields.all (·.2.isNone)

/-- The directive is about this event.  Every event has one field, its message. -/
def Directive.concerns (d : Directive) (e : Event) : Bool :=
  d.isStatic && d.target.all (·.toList.isPrefixOf e.target.toList) &&
    d.fields.all (·.1 == "message")

/-- A longer target is more specific, and of equally long ones more fields are. -/
def Directive.yieldsTo (d d' : Directive) : Bool :=
  let size (d : Directive) : Nat := d.target.elim 0 (·.utf8ByteSize + 1)
  size d < size d' || (size d == size d' && d.fields.length ≤ d'.fields.length)

/-- The most specific of several directives, the last one of equally specific ones. -/
def mostSpecific : List Directive → Option Directive :=
  List.foldl (fun best d => best.elim (some d) fun b => some (if b.yieldsTo d then d else b)) none

/-- The event is shown.  A filter without directives shows errors. -/
def shows (f : LogFilter) (e : Event) : Bool :=
  if f.directives.isEmpty then
    e.level == .error
  else
    match mostSpecific (f.directives.filter (·.concerns e)) with
    | some d => e.level.rank ≤ d.threshold
    | none => false

end LogFilter

end BuildFleet
