import VirtineCleaning.LogFilter.Pattern.Reader

/-!
# Values of fields

A field of a log filter is compared with a number or with a pattern. A number may have a sign, a fraction and an
exponent, and may be infinite or no number at all.
-/

namespace VirtineCleaning.LogFilter

/-- The text without a sign at its head. -/
def unsigned : List Char → List Char
  | '+' :: rest => rest
  | '-' :: rest => rest
  | all => all

/-- The text is an exponent, which may be missing. -/
def isExponent : List Char → Bool
  | [] => true
  | e :: rest => (e = 'e' || e = 'E') && !(unsigned rest).isEmpty && (unsigned rest).all Char.isDigit

/-- The text has at least one digit before or behind a point, and then an exponent. -/
def isDecimal (cs : List Char) : Bool :=
  let whole := cs.takeWhile Char.isDigit
  match cs.dropWhile Char.isDigit with
  | '.' :: rest => !(whole ++ rest.takeWhile Char.isDigit).isEmpty && isExponent (rest.dropWhile Char.isDigit)
  | rest => !whole.isEmpty && isExponent rest

/-- The words for what is beyond the numbers. -/
def specialNumbers : List String := ["inf", "infinity", "nan"]

/-- The text is a number. -/
def isNumber (cs : List Char) : Bool :=
  isDecimal (unsigned cs) || specialNumbers.contains (String.ofList (unsigned cs)).toLower

/-- The text is a value that a field can be compared with. -/
def isValue (cs : List Char) : Bool := isNumber cs || Pattern.isPattern cs

end VirtineCleaning.LogFilter
