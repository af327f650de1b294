import BuildFleet.Text.Extending
import BuildFleet.Text.Unprintable

/-!
# Text — quotation

A string as it is quoted in a message: between double quotes, on one line, with every character
that would not show, or would join the one before it, written by its code point.
-/

namespace BuildFleet.Text.Quoted

/-- The character is written by its code point inside a quotation. -/
def hidden (c : Char) : Bool :=
  c.toNat < 0x20 || (0x7f ≤ c.toNat && (unprintable.contains c || extending.contains c))

/-- A character by its code point, in lower-case hexadecimal digits between braces. -/
def codePoint (c : Char) : List Char :=
  '\\' :: 'u' :: '{' :: Nat.toDigits 16 c.toNat ++ ['}']

/-- How one character is written inside a quotation. -/
def encodeChar : Char → List Char
  | '"' => ['\\', '"']
  | '\\' => ['\\', '\\']
  | '\t' => ['\\', 't']
  | '\n' => ['\\', 'n']
  | '\r' => ['\\', 'r']
  | '\x00' => ['\\', '0']
  | c => if hidden c then codePoint c else [c]

end Quoted

/-- The quotation of a string. -/
def quoted (s : String) : String :=
  String.ofList ('"' :: s.toList.flatMap Quoted.encodeChar ++ ['"'])

/-- The quotation of a path, in which an apostrophe is escaped as well. -/
def quotedPath (s : String) : String :=
  let encodeChar (c : Char) := if c = '\'' then ['\\', '\''] else Quoted.encodeChar c
  String.ofList ('"' :: s.toList.flatMap encodeChar ++ ['"'])

end BuildFleet.Text
