import BuildFleet.Text.Pattern

/-!
# Log filters — values of fields

The value that a directive wants of a field is a regular expression, or a number.  No event here has a
field whose value is compared, so all that matters of it is whether it is well-formed: a directive
with a malformed one is no directive.
-/

namespace BuildFleet.LogFilter

/-- A number without a sign, with a point and an exponent if need be, or a word for one. -/
def isNumber (text : List Char) : Bool :=
  let word := String.ofList (text.map Char.toLower)
  let mantissa := text.takeWhile fun c => c.isDigit || c == '.'
  let digits := mantissa.filter Char.isDigit
  let exponent := text.dropWhile fun c => c.isDigit || c == '.'
  let exponentDigits := match exponent with
    | _ :: '+' :: rest | _ :: '-' :: rest | _ :: rest => rest
    | [] => ['0']
  word == "inf" || word == "infinity" || word == "nan" ||
    (!digits.isEmpty && mantissa.length ≤ digits.length + 1 &&
      exponent.head?.all (·.toLower == 'e') &&
      !exponentDigits.isEmpty && exponentDigits.all Char.isDigit)

/-- The text can be wanted as the value of a field: it is a pattern, or a number with a plus. -/
def isFieldValue (text : List Char) : Bool :=
  Text.isPattern text ||
    match text with
    | '+' :: rest => isNumber rest
    | _ => false

end BuildFleet.LogFilter
