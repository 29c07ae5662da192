import NodeScript.Decimal.Shortest

/-!
Written forms of doubles. The digits are the fewest that read back; a layout says where the
exponent form begins, whether integers keep a fraction, and which way ties go.
-/

set_option autoImplicit false
set_option relaxedAutoImplicit false

namespace NodeScript.Decimal

/-- The decisions of a written form of doubles. -/
structure Layout where
  tie : Tie
  /-- The positions of the point, counted from the first digit, that are written without an
  exponent: above the first bound and up to the second. All of them where there are no bounds. -/
  plain : Option (Int × Int)
  /-- Whether an integer is written with the fraction `.0`. -/
  keepsFraction : Bool

/-- Never an exponent, no fraction on integers, ties go up. -/
def Layout.positional : Layout := ⟨.up, none, false⟩

/-- An exponent outside of `1e-5` to `1e16`, always a fraction or an exponent, ties go to even. -/
def Layout.scientific : Layout := ⟨.even, some (-5, 16), true⟩

/-- The decimal digits of a number, most significant first. -/
def digitsOf (n : Nat) : List Char := Nat.toDigits 10 n

private def zeros (n : Nat) : List Char := List.replicate n '0'

/-- Digits with the point after the first `point` of them, without an exponent. -/
def plainForm (keepsFraction : Bool) (digits : List Char) (point : Int) : List Char :=
  if point ≤ 0 then '0' :: '.' :: zeros (-point).toNat ++ digits
  else
    let whole := point.toNat
    if digits.length ≤ whole then
      digits ++ zeros (whole - digits.length) ++ if keepsFraction then ['.', '0'] else []
    else digits.take whole ++ '.' :: digits.drop whole

/-- One digit before the point, and an exponent that always has its sign. -/
def exponentForm (digits : List Char) (point : Int) : List Char :=
  let exponent := point - 1
  let fraction := digits.drop 1
  digits.take 1 ++ (if fraction.isEmpty then [] else '.' :: fraction) ++
    'e' :: (if exponent < 0 then '-' else '+') :: digitsOf exponent.natAbs

/-- The text of a finite magnitude `m * 2 ^ q`. -/
def Layout.magnitude (layout : Layout) (m : Nat) (q : Int) : List Char :=
  if m = 0 then plainForm layout.keepsFraction ['0'] 1
  else
    let scaled := shortest layout.tie m q
    let digits := digitsOf scaled.digits
    let point := scaled.exponent + digits.length
    match layout.plain with
    | none => plainForm layout.keepsFraction digits point
    | some (low, high) =>
      if low < point ∧ point ≤ high then plainForm layout.keepsFraction digits point
      else exponentForm digits point

/-- The text of a double. -/
def Layout.render (layout : Layout) (d : Double) : String :=
  if d.isNaN then "NaN"
  else
    let sign := if d.isNegative then ['-'] else []
    if d.isInfinite then String.ofList (sign ++ ['i', 'n', 'f'])
    else
      let (m, q) := d.decompose
      String.ofList (sign ++ layout.magnitude m q)

end NodeScript.Decimal

namespace NodeScript.Double

/-- The text of a number in messages and listings: no exponent, however large or small. -/
def text (d : Double) : String := Decimal.Layout.positional.render d

end NodeScript.Double
