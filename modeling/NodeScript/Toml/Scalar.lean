import NodeScript.Decimal.Parse
import NodeScript.Toml.Basic
import NodeScript.Toml.Quoted

/-!
Values that are written as one word: truth values, integers, numbers with a fraction or an
exponent, dates and times.
-/

set_option autoImplicit false
set_option relaxedAutoImplicit false

namespace NodeScript.Toml

/-- Digits without the underscores that stand one by one between them. -/
def ungroup? (isDigit : Char → Bool) : List Char → Option (List Char)
  | [] => none
  | [c] => if isDigit c then some [c] else none
  | c :: '_' :: rest => if isDigit c then (ungroup? isDigit rest).map (c :: ·) else none
  | c :: rest => if isDigit c then (ungroup? isDigit rest).map (c :: ·) else none

/-- The digits of a whole number, of which only a lone one may be a zero at the start. -/
def wholeDigits? (word : List Char) : Option (List Char) :=
  (ungroup? Char.isDigit word).filter fun digits => digits.length = 1 || digits.head? != some '0'

/-- Whether an integer fits into 64 bits with a sign. -/
def fits (i : Int) : Bool := -0x8000000000000000 ≤ i && i < 0x8000000000000000

def natural? (base : Nat) (word : List Char) : Option Int :=
  (ungroup? (fun c => (digit? base c).isSome) word >>= natOfBase? base).map Int.ofNat

/-- A whole number of 64 bits, in base ten with a sign or in another base without one. -/
def integer? (word : List Char) : Option Int :=
  let i := match word with
    | '0' :: 'x' :: digits => natural? 16 digits
    | '0' :: 'o' :: digits => natural? 8 digits
    | '0' :: 'b' :: digits => natural? 2 digits
    | _ => do
      let (negative, digits) := Decimal.takeSign word
      let n : Int := Decimal.natOfDigits (← wholeDigits? digits)
      return if negative then -n else n
  i.filter fits

/-- The part of a number behind a mark, if the mark is there, and what is behind that part. -/
def partBehind (marks : List Char) (takesSign : Bool) :
    List Char → Option (List Char) × List Char
  | [] => (none, [])
  | c :: rest =>
    if marks.contains c then
      let rest := if takesSign then (Decimal.takeSign rest).2 else rest
      let (digits, rest) := rest.span fun c => c.isDigit || c == '_'
      (some digits, rest)
    else (none, c :: rest)

/-- A number with a fraction, an exponent or both, or one of the words for infinity and NaN. No
digits may stand for infinity, save behind a minus. -/
def number? (word : List Char) : Option Double := do
  let (negative, rest) := Decimal.takeSign word
  let d ← Decimal.parse? (String.ofList (word.filter (· != '_')))
  if rest = "inf".toList || rest = "nan".toList then return d
  let (whole, rest) := rest.span fun c => c.isDigit || c == '_'
  let (fraction, rest) := partBehind ['.'] false rest
  let (exponent, rest) := partBehind ['e', 'E'] true rest
  let parts := fraction.toList ++ exponent.toList
  if (wholeDigits? whole).isSome && !parts.isEmpty && rest.isEmpty &&
      parts.all (fun digits => (ungroup? Char.isDigit digits).isSome) &&
      (negative || !d.isInfinite) then some d
  else none

/-- A number of the given count of digits, between two bounds, and what is behind it. -/
def field? (size low high : Nat) (text : List Char) : Option (Nat × List Char) :=
  let digits := text.take size
  let n := Decimal.natOfDigits digits
  if digits.length = size && digits.all Char.isDigit && low ≤ n && n ≤ high then
    some (n, text.drop size)
  else none

/-- What is behind one of some characters. -/
def behind? (marks : List Char) : List Char → Option (List Char)
  | [] => none
  | c :: rest => if marks.contains c then some rest else none

/-- The days of a month; a leap year has one more in February. -/
def daysOf (year month : Nat) : Nat :=
  if month = 2 then
    if year % 4 = 0 && (year % 100 != 0 || year % 400 = 0) then 29 else 28
  else if [4, 6, 9, 11].contains month then 30
  else 31

/-- What is behind a date. -/
def afterDate? (text : List Char) : Option (List Char) := do
  let (year, rest) ← field? 4 0 9999 text
  let (month, rest) ← field? 2 1 12 (← behind? ['-'] rest)
  let (_, rest) ← field? 2 1 (daysOf year month) (← behind? ['-'] rest)
  return rest

/-- What is behind a time of day; a leap second is one. -/
def afterClock? (text : List Char) : Option (List Char) := do
  let (_, rest) ← field? 2 0 23 text
  let (_, rest) ← field? 2 0 59 (← behind? [':'] rest)
  let (_, rest) ← field? 2 0 60 (← behind? [':'] rest)
  match rest with
  | '.' :: c :: rest => if c.isDigit then return rest.dropWhile Char.isDigit else none
  | rest => return rest

/-- Whether a text is nothing or a distance from universal time. -/
def isOffset : List Char → Bool
  | [] | ['Z'] | ['z'] => true
  | text => (do
    let (_, rest) ← field? 2 0 23 (← behind? ['+', '-'] text)
    let (_, rest) ← field? 2 0 59 (← behind? [':'] rest)
    return rest.isEmpty) == some true

/-- Whether a word is a date, a time of day, or both with or without a distance from universal
time. -/
def isTime (word : List Char) : Bool :=
  match afterDate? word with
  | some [] => true
  | some rest => (behind? ['T', 't', ' '] rest >>= afterClock?).any isOffset
  | none => afterClock? word = some []

def isWordChar (c : Char) : Bool := c.isAlphanum || "_+-.:".toList.contains c

/-- The word at the start of a text, and what is behind it. A blank between a date and a time
belongs to the word. -/
def takeWord (text : List Char) : List Char × List Char :=
  let (word, rest) := text.span isWordChar
  match rest with
  | ' ' :: c :: after =>
    if c.isDigit && afterDate? word = some [] then
      let (clock, rest) := (c :: after).span isWordChar
      (word ++ ' ' :: clock, rest)
    else (word, rest)
  | _ => (word, rest)

/-- The value that a word stands for. -/
def ofWord? (word : List Char) : Option Value :=
  if word = "true".toList then some (.truth true)
  else if word = "false".toList then some (.truth false)
  else if isTime word then some .time
  else ((integer? word).map .integer).or ((number? word).map .number)

end NodeScript.Toml
