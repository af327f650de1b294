/-!
# JSON — bytes

The bytes that have a meaning of their own in a JSON text.
-/

namespace BuildFleet.Json

abbrev Bytes := List UInt8

def newline : UInt8 := 0x0a

def quote : UInt8 := 0x22

def backslash : UInt8 := 0x5c

def comma : UInt8 := 0x2c

def colon : UInt8 := 0x3a

def openBracket : UInt8 := 0x5b

def closeBracket : UInt8 := 0x5d

def openBrace : UInt8 := 0x7b

def closeBrace : UInt8 := 0x7d

def minusSign : UInt8 := 0x2d

def plusSign : UInt8 := 0x2b

def point : UInt8 := 0x2e

def zeroDigit : UInt8 := 0x30

/-- The letter of the escapes by code unit. -/
def letterU : UInt8 := 0x75

/-- The first letter of `null`. -/
def letterN : UInt8 := 0x6e

/-- The first letter of `true`. -/
def letterT : UInt8 := 0x74

/-- The first letter of `false`. -/
def letterF : UInt8 := 0x66

/-- Space, tab, line feed, carriage return. -/
def isBlank (b : UInt8) : Bool :=
  b == 0x20 || b == 0x09 || b == newline || b == 0x0d

def isDigit (b : UInt8) : Bool :=
  0x30 ≤ b && b ≤ 0x39

/-- The letter that begins an exponent. -/
def isExponentLetter (b : UInt8) : Bool :=
  b == 0x65 || b == 0x45

/-- The byte is not allowed inside a string. -/
def isControl (b : UInt8) : Bool :=
  b < 0x20

end BuildFleet.Json
