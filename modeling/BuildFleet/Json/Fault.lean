import BuildFleet.Decimal.Shortest
import BuildFleet.Json.Byte
import BuildFleet.SystemError
import BuildFleet.Text.Quoted

/-!
# JSON — faults

What can be wrong with a JSON text, and where.

A fault is found at the first byte that rules the text out.  Its *mark* says which bytes are
counted for its place: those consumed so far, or also the one that was only looked at.  A text in
memory and a stream differ here: a stream has to take a byte to look at it, so there the byte
looked at last counts in any case.
-/

namespace BuildFleet.Json

/-- What was being read when the bytes ended. -/
inductive Construct where
  | value
  | list
  | object
  | string
  deriving DecidableEq

/-- A value of another type than the one wanted. -/
inductive Found where
  | null
  | boolean (b : Bool)
  | integer (n : Int)
  | float (negative : Bool) (magnitude : Decimal.Binary64)
  | string (s : String)
  | sequence
  | map
  deriving DecidableEq

/-- The type that was wanted. -/
inductive Wanted where
  | string
  | boolean
  | sequence
  | record (name : String)
  deriving DecidableEq

/-- What is wrong. -/
inductive Cause where
  | ended (inside : Construct)
  | expectedColon
  | expectedListCommaOrEnd
  | expectedObjectCommaOrEnd
  | expectedIdent
  | expectedValue
  | invalidEscape
  | invalidNumber
  | numberOutOfRange
  | invalidCodePoint
  | controlCharacter
  | keyMustBeString
  | loneSurrogate
  | unexpectedEndOfEscape
  | trailingComma
  | trailingCharacters
  | invalidType (found : Found) (wanted : Wanted)
  | invalidLength (length : Nat) (record : String) (arity : Nat)
  | missingField (field : String)
  | duplicateField (field : String)
  | io (error : SystemError)
  deriving DecidableEq

/-- The four classes of causes. -/
inductive Category where
  /-- The bytes are no JSON text. -/
  | grammar
  /-- They are, but not of the wanted shape. -/
  | data
  /-- They could begin a text, but end too early. -/
  | ended
  /-- They could not be read. -/
  | io
  deriving DecidableEq

def Cause.category : Cause → Category
  | .ended _ => .ended
  | .invalidType .. | .invalidLength .. | .missingField _ | .duplicateField _ => .data
  | .io _ => .io
  | _ => .grammar

/-! ### Texts -/

def Construct.text : Construct → String
  | .value => "a value"
  | .list => "a list"
  | .object => "an object"
  | .string => "a string"

def Found.text : Found → String
  | .null => "null"
  | .boolean b => s!"boolean `{b}`"
  | .integer n => s!"integer `{n}`"
  | .float negative x => s!"floating point `{x.text negative}`"
  | .string s => s!"string {Text.quoted s}"
  | .sequence => "sequence"
  | .map => "map"

def Wanted.text : Wanted → String
  | .string => "a string"
  | .boolean => "a boolean"
  | .sequence => "a sequence"
  | .record name => s!"struct {name}"

/-- A number of elements, with the noun in the right number. -/
def elementCount (n : Nat) : String :=
  if n = 1 then "1 element" else s!"{n} elements"

def Cause.text : Cause → String
  | .ended inside => s!"EOF while parsing {inside.text}"
  | .expectedColon => "expected `:`"
  | .expectedListCommaOrEnd => "expected `,` or `]`"
  | .expectedObjectCommaOrEnd => "expected `,` or `\x7d`"
  | .expectedIdent => "expected ident"
  | .expectedValue => "expected value"
  | .invalidEscape => "invalid escape"
  | .invalidNumber => "invalid number"
  | .numberOutOfRange => "number out of range"
  | .invalidCodePoint => "invalid unicode code point"
  | .controlCharacter =>
    "control character (\\u0000-\\u001F) found while parsing a string"
  | .keyMustBeString => "key must be a string"
  | .loneSurrogate => "lone leading surrogate in hex escape"
  | .unexpectedEndOfEscape => "unexpected end of hex escape"
  | .trailingComma => "trailing comma"
  | .trailingCharacters => "trailing characters"
  | .invalidType found wanted => s!"invalid type: {found.text}, expected {wanted.text}"
  | .invalidLength length record arity =>
    s!"invalid length {length}, expected struct {record} with {elementCount arity}"
  | .missingField field => s!"missing field `{field}`"
  | .duplicateField field => s!"duplicate field `{field}`"
  | .io error => error.message

/-! ### Places -/

/-- How the bytes are delivered. -/
inductive Delivery where
  /-- All at once. -/
  | text
  /-- One at a time. -/
  | stream
  deriving DecidableEq

/-- Which bytes count for the place of a fault, given by those that are left. -/
inductive Mark where
  /-- No place: reading failed outside the value. -/
  | nowhere
  /-- All but the last `left` bytes. -/
  | consumed (left : Nat)
  /-- All but the last `left` bytes, and the first of those. -/
  | peeked (left : Nat)
  /-- All but the last `left` bytes; a stream also counts the first of those. -/
  | looked (left : Nat)
  /-- As `consumed`, but `back` columns further left, or at the start of the line. -/
  | behind (left back : Nat)
  deriving DecidableEq

structure Fault where
  cause : Cause
  mark : Mark
  deriving DecidableEq

/-- A line, from one, and the number of bytes counted on it. -/
structure Place where
  line : Nat
  column : Nat
  deriving DecidableEq

/-- The place after these bytes. -/
def Place.after (counted : Bytes) : Place where
  line := 1 + counted.count newline
  column := (counted.reverse.takeWhile (· != newline)).length

/-- How many bytes count, of `total`. -/
def Mark.counted (total : Nat) : Delivery → Mark → Nat
  | _, .nowhere => 0
  | _, .consumed left | _, .behind left _ => total - left
  | _, .peeked left => total - (left - 1)
  | .text, .looked left => total - left
  | .stream, .looked left => total - (left - 1)

/-- The place of a mark in the bytes it was made in. -/
def Mark.place? (bytes : Bytes) (delivery : Delivery) (mark : Mark) : Option Place :=
  let here := Place.after (bytes.take (mark.counted bytes.length delivery))
  match mark with
  | .nowhere => none
  | .behind _ back => some { here with column := here.column - back }
  | _ => some here

/-! ### Errors -/

/-- A fault with its place, as it is reported. -/
structure Error where
  cause : Cause
  place? : Option Place
  deriving DecidableEq

def Error.category (e : Error) : Category :=
  e.cause.category

def Error.message (e : Error) : String :=
  match e.place? with
  | none => e.cause.text
  | some place => s!"{e.cause.text} at line {place.line} column {place.column}"

end BuildFleet.Json
