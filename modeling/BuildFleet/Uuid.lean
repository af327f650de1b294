/-!
# UUIDs

The spellings of a universally unique identifier: 32 hexadecimal digits, plain or in groups of
8, 4, 4, 4 and 12 with hyphens between them; the grouped form also within braces, or after
`urn:uuid:`.  Digits and the prefix may be in either case.
-/

namespace BuildFleet.Uuid

def isHexDigit (c : Char) : Bool :=
  ('0' ≤ c && c ≤ '9') || ('a' ≤ c && c ≤ 'f') || ('A' ≤ c && c ≤ 'F')

/-- 32 digits without hyphens. -/
def isPlain (s : List Char) : Bool :=
  s.length == 32 && s.all isHexDigit

/-- Where the hyphens stand. -/
def isHyphenPlace (index : Nat) : Bool :=
  index == 8 || index == 13 || index == 18 || index == 23

/-- Digits in groups. -/
def isGrouped (s : List Char) : Bool :=
  s.length == 36 &&
    s.zipIdx.all fun (c, index) => if isHyphenPlace index then c == '-' else isHexDigit c

/-- Digits in groups, within braces. -/
def isBraced : List Char → Bool
  | '{' :: rest => rest.getLast? == some '}' && isGrouped rest.dropLast
  | _ => false

/-- Digits in groups, after the name of their namespace. -/
def isNamed (s : List Char) : Bool :=
  (s.take 9).map Char.toLower == "urn:uuid:".toList && isGrouped (s.drop 9)

/-- The text is a spelling of a UUID. -/
def isUuid (text : String) : Bool :=
  let s := text.toList
  isPlain s || isGrouped s || isBraced s || isNamed s

end BuildFleet.Uuid
