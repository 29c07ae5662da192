import NodeScript.Double

/-!
The fewest decimal digits that read back as a given double. On the grid of each digit count the
two neighbours of the value are tested against the interval of reals that round to it, in exact
integers: the first grid with a hit wins, and of two hits the nearer one.
-/

set_option autoImplicit false
set_option relaxedAutoImplicit false

namespace NodeScript.Decimal

/-- Where a value goes that lies in the middle between two candidates. -/
inductive Tie where
  | up
  | even
deriving DecidableEq, Repr

/-- The number `digits * 10 ^ exponent`. -/
structure Scaled where
  digits : Nat
  exponent : Int
deriving DecidableEq, Repr

/-- A value between the ends of its rounding interval, all over one denominator. -/
structure Interval where
  low : Nat
  value : Nat
  high : Nat
  den : Nat
  /-- Whether the ends belong to the interval. -/
  closed : Bool

/-- The reals that round to `m * 2 ^ q`. Below a power of two the next double is only half as far
away, and the ends belong to the even significand. -/
def Interval.ofBinary (m : Nat) (q : Int) : Interval :=
  let below := if m = Double.exponentWeight ∧ -1074 < q then 1 else 2
  let scale := (q - 2).toNat
  { low := (4 * m - below) <<< scale
    value := (4 * m) <<< scale
    high := (4 * m + 2) <<< scale
    den := 1 <<< (2 - q).toNat
    closed := m % 2 == 0 }

/-- The same interval measured in units of `10 ^ k`. -/
def Interval.inUnits (i : Interval) (k : Int) : Interval :=
  let up := Nat.pow 10 (-k).toNat
  { i with
    low := i.low * up
    value := i.value * up
    high := i.high * up
    den := i.den * Nat.pow 10 k.toNat }

/-- Whether the integer `n` lies in the interval. -/
def Interval.holds (i : Interval) (n : Nat) : Bool :=
  if i.closed then i.low ≤ n * i.den && n * i.den ≤ i.high
  else i.low < n * i.den && n * i.den < i.high

/-- The integer of the interval that is nearest to its value, if one of the two neighbours of the
value lies in it. -/
def Interval.nearest? (i : Interval) (tie : Tie) : Option Nat :=
  let n := i.value / i.den
  match i.holds n, i.holds (n + 1) with
  | false, false => none
  | true, false => some n
  | false, true => some (n + 1)
  | true, true =>
    let twice := 2 * i.value
    let middle := (2 * n + 1) * i.den
    if twice < middle then some n
    else if middle < twice then some (n + 1)
    else match tie with
      | .up => some (n + 1)
      | .even => some (n + n % 2)

/-- The greatest `e` with `10 ^ e` at most `m * 2 ^ q`, for positive `m`. -/
def leadingExponent (m : Nat) (q : Int) : Int :=
  let guess := ((m.log2 : Int) + q) * 30103 / 100000
  let next := guess + 1
  let value := (m * Nat.pow 10 (-next).toNat) <<< q.toNat
  if (Nat.pow 10 next.toNat) <<< (-q).toNat ≤ value then next else guess

/-- Moves trailing zeros into the exponent. -/
def Scaled.trim : Nat → Scaled → Scaled
  | 0, s => s
  | fuel + 1, s =>
    if s.digits % 10 = 0 then trim fuel ⟨s.digits / 10, s.exponent + 1⟩ else s

/-- The fewest digits that read back as the positive number `m * 2 ^ q`. -/
def shortest (tie : Tie) (m : Nat) (q : Int) : Scaled :=
  let interval := Interval.ofBinary m q
  let top := leadingExponent m q
  let hit := (List.range 17).findSome? fun (extra : Nat) =>
    let k := top - extra
    ((interval.inUnits k).nearest? tie).map (Scaled.mk · k)
  (hit.getD ⟨m, q⟩).trim 18

end NodeScript.Decimal
