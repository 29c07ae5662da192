/-!
Binary64 numbers by their bit patterns. Equality of doubles is equality of bits, so that NaN
payloads and the sign of zero are kept; the comparisons of IEEE 754 are functions of their own.
Rounding from exact ratios and from decimals is done in natural numbers.
-/

set_option autoImplicit false
set_option relaxedAutoImplicit false

namespace NodeScript

/-- A binary64 number as its 64 bits. -/
structure Double where
  bits : UInt64
deriving DecidableEq, Inhabited, Repr

namespace Double

/-- The weight of the sign bit, the 63rd power of two. -/
def signWeight : Nat := 0x8000000000000000

/-- The weight of the lowest bit of the exponent, the 52nd power of two. -/
def exponentWeight : Nat := 0x10000000000000

/-- The bit pattern below the sign. -/
def magnitude (d : Double) : Nat := d.bits.toNat % signWeight

def isNegative (d : Double) : Bool := signWeight ≤ d.bits.toNat

/-- The pattern of infinity; patterns above it are the NaNs. -/
def infinityMagnitude : Nat := 2047 * exponentWeight

def isNaN (d : Double) : Bool := infinityMagnitude < d.magnitude

def isInfinite (d : Double) : Bool := d.magnitude == infinityMagnitude

def isFinite (d : Double) : Bool := d.magnitude < infinityMagnitude

def isZero (d : Double) : Bool := d.magnitude == 0

/-- The double with the given sign and the given pattern below it. -/
def ofMagnitude (negative : Bool) (magnitude : Nat) : Double :=
  ⟨UInt64.ofNat (magnitude + if negative then signWeight else 0)⟩

def zero : Double := ⟨0⟩

def infinity (negative : Bool) : Double := ofMagnitude negative infinityMagnitude

/-- The quiet NaN with an empty payload. -/
def nan : Double := ofMagnitude false (infinityMagnitude + exponentWeight / 2)

/-- The significand `m` and the exponent `q` of a finite double of absolute value `m * 2 ^ q`. -/
def decompose (d : Double) : Nat × Int :=
  let field := d.magnitude / exponentWeight
  let fraction := d.magnitude % exponentWeight
  if field = 0 then (fraction, -1074) else (fraction + exponentWeight, (field : Int) - 1075)

/-- The place of a number that is no NaN in the order of the reals; both zeros have place 0. -/
def place (d : Double) : Int :=
  if d.isNegative then -(d.magnitude : Int) else (d.magnitude : Int)

/-- Equality of numbers: a NaN equals nothing, the two zeros are equal. -/
def eq (a b : Double) : Bool :=
  !a.isNaN && !b.isNaN && a.place == b.place

/-- Order of numbers: false as soon as one of them is a NaN. -/
def lt (a b : Double) : Bool :=
  !a.isNaN && !b.isNaN && decide (a.place < b.place)

def le (a b : Double) : Bool :=
  !a.isNaN && !b.isNaN && decide (a.place ≤ b.place)

/-- The lesser of two numbers; of a NaN and another the other. -/
def lesser (a b : Double) : Double :=
  if a.isNaN then b else if b.isNaN then a else if b.lt a then b else a

/-- The greater of two numbers; of a NaN and another the other. -/
def greater (a b : Double) : Double :=
  if a.isNaN then b else if b.isNaN then a else if a.lt b then b else a

/-- The quotient rounded to the nearest integer, a half going to the even neighbour. -/
def roundQuotient (num den : Nat) : Nat :=
  let q := num / den
  let r := num % den
  if 2 * r < den then q
  else if den < 2 * r then q + 1
  else q + q % 2

/-- The ratio `num / den` divided by `2 ^ q`, rounded half to even. -/
def roundScaled (num den : Nat) (q : Int) : Nat :=
  if 0 ≤ q then roundQuotient num (den <<< q.toNat)
  else roundQuotient (num <<< (-q).toNat) den

/-- The greatest `e` with `2 ^ e ≤ num / den`, for positive `num` and `den`. -/
def binaryExponent (num den : Nat) : Int :=
  let guess := (num.log2 : Int) - (den.log2 : Int)
  let reached :=
    if 0 ≤ guess then den <<< guess.toNat ≤ num else den ≤ num <<< (-guess).toNat
  if reached then guess else guess - 1

/-- The nearest double to `num / den`, as the pattern below the sign. -/
def nearestMagnitude (num den : Nat) : Nat :=
  if num = 0 then 0
  else
    let q := max (binaryExponent num den - 52) (-1074)
    min ((q + 1074).toNat * exponentWeight + roundScaled num den q) infinityMagnitude

/-- The nearest double to `digits * 10 ^ exponent`. Numbers beyond the range are infinite; those
far below the least subnormal are zero without computing the power of ten. -/
def ofDecimal (negative : Bool) (digits : Nat) (exponent : Int) : Double :=
  ofMagnitude negative <|
    if digits = 0 then 0
    else if 0 ≤ exponent then
      if 400 < exponent then infinityMagnitude
      else nearestMagnitude (digits * Nat.pow 10 exponent.toNat) 1
    else
      let places := (-exponent).toNat
      if digits.log2 + 1100 < 3 * places then 0
      else nearestMagnitude digits (Nat.pow 10 places)

def ofInt (i : Int) : Double := ofDecimal (i < 0) i.natAbs 0

instance (n : Nat) : OfNat Double n := ⟨ofInt n⟩

/-- The integer that a number is, if it is one and not negative. Minus zero is zero. -/
def toNat? (d : Double) : Option Nat :=
  let (m, q) := d.decompose
  if !d.isFinite || (d.isNegative && m != 0) then none
  else if 0 ≤ q then some (m <<< q.toNat)
  else
    let whole := m >>> (-q).toNat
    if whole <<< (-q).toNat = m then some whole else none

def abs (d : Double) : Double := ofMagnitude false d.magnitude

/-- The distance from 1 to the next double. -/
def epsilon : Double := ofMagnitude false ((1023 - 52) * exponentWeight)

def toFloat (d : Double) : Float := Float.ofBits d.bits

def ofFloat (x : Float) : Double := ⟨x.toBits⟩

def add (a b : Double) : Double := ofFloat (a.toFloat + b.toFloat)

def sub (a b : Double) : Double := ofFloat (a.toFloat - b.toFloat)

def mul (a b : Double) : Double := ofFloat (a.toFloat * b.toFloat)

def div (a b : Double) : Double := ofFloat (a.toFloat / b.toFloat)

end Double

end NodeScript
