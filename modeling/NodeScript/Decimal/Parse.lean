import NodeScript.Double

/-!
Doubles from decimal text: a sign, digits with at most one point among them, and an exponent; or
the words for infinity and NaN in any case.
-/

set_option autoImplicit false
set_option relaxedAutoImplicit false

namespace NodeScript.Decimal

/-- The number that decimal digits stand for. -/
def natOfDigits (digits : List Char) : Nat :=
  digits.foldl (fun n c => 10 * n + (c.toNat - '0'.toNat)) 0

/-- The sign at the start of a text, and what is behind it. -/
def takeSign : List Char → Bool × List Char
  | '-' :: rest => (true, rest)
  | '+' :: rest => (false, rest)
  | text => (false, text)

/-- A whole number with a sign, and nothing else. -/
def int? (text : List Char) : Option Int :=
  let (negative, digits) := takeSign text
  if digits.isEmpty || !digits.all Char.isDigit then none
  else
    let n : Int := natOfDigits digits
    some (if negative then -n else n)

/-- The exponent at the end of a number. -/
def exponent? : List Char → Option Int
  | [] => some 0
  | 'e' :: rest | 'E' :: rest => int? rest
  | _ => none

/-- A number without its sign. -/
def magnitude? (negative : Bool) (text : List Char) : Option Double :=
  let whole := text.takeWhile Char.isDigit
  let rest := text.dropWhile Char.isDigit
  let (fraction, rest) := match rest with
    | '.' :: rest => (rest.takeWhile Char.isDigit, rest.dropWhile Char.isDigit)
    | rest => ([], rest)
  if whole.isEmpty && fraction.isEmpty then none
  else
    (exponent? rest).map fun exponent =>
      Double.ofDecimal negative (natOfDigits (whole ++ fraction)) (exponent - fraction.length)

/-- The double that a text stands for. -/
def parse? (text : String) : Option Double :=
  let (negative, rest) := takeSign text.toList
  match String.ofList (rest.map Char.toLower) with
  | "inf" | "infinity" => some (.infinity negative)
  | "nan" => some (.ofMagnitude negative Double.nan.magnitude)
  | _ => magnitude? negative rest

end NodeScript.Decimal
