import BuildFleet.Text.CharRange

/-!
# Text — blank characters

The code points with the property "white space".
-/

namespace BuildFleet.Text

/-- Spaces, tabs and line breaks of every kind. -/
def blank : CharRanges :=
  [(0x9, 0xd), (0x20, 0x20), (0x85, 0x85), (0xa0, 0xa0), (0x1680, 0x1680), (0x2000, 0x200a),
   (0x2028, 0x2029), (0x202f, 0x202f), (0x205f, 0x205f), (0x3000, 0x3000)]

/-- A text without the blank characters around it. -/
def trim (text : List Char) : List Char :=
  ((text.dropWhile blank.contains).reverse.dropWhile blank.contains).reverse

end BuildFleet.Text
