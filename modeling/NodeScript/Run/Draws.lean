import NodeScript.Double

/-!
Random numbers. They come from outside: a run asks for a number from one bound up to another, and
gets one or none.
-/

set_option autoImplicit false
set_option relaxedAutoImplicit false

namespace NodeScript

/-- There are numbers from the first bound up to the second, which is no infinite way from it. -/
def Double.IsRange (low high : Double) : Prop :=
  low.lt high = true ∧ (high.sub low).isFinite = true

instance (low high : Double) : Decidable (low.IsRange high) :=
  inferInstanceAs (Decidable (_ ∧ _))

/-- A source of random numbers. -/
structure Draws where
  /-- The answer to each question in turn, which is for a number from a bound up to another. The
  run panics where there is none. -/
  answers : Nat → Double → Double → Option Double
  /-- The number of questions so far. -/
  drawn : Nat := 0

namespace Draws

/-- The answer to a question, and the source after it. -/
def next (draws : Draws) (low high : Double) : Option Double × Draws :=
  (draws.answers draws.drawn low high, { draws with drawn := draws.drawn + 1 })

/-- A source does as it is documented: it has a number for every range, which is in the range, and
none for bounds that are no range. -/
structure Documented (draws : Draws) : Prop where
  within : ∀ {turn low high x}, draws.answers turn low high = some x → low.le x ∧ x.lt high
  answers_isSome : ∀ turn low high, (draws.answers turn low high).isSome ↔ low.IsRange high

/-- A number of 53 bits for each turn. -/
def bits (seed : UInt64) (turn : Nat) : Nat :=
  let mixed := seed + UInt64.ofNat (turn + 1) * 0x9e3779b97f4a7c15
  let mixed := (mixed ^^^ (mixed >>> 30)) * 0xbf58476d1ce4e5b9
  let mixed := (mixed ^^^ (mixed >>> 27)) * 0x94d049bb133111eb
  (mixed ^^^ (mixed >>> 31)).toNat >>> 11

/-- A source whose numbers are spread evenly over each range. -/
def spread (seed : UInt64) : Draws where
  answers turn low high :=
    if low.IsRange high then
      let share := (Double.ofInt (bits seed turn)).div (Double.ofInt 0x20000000000000)
      let value := low.add (share.mul (high.sub low))
      some (if low.le value && value.lt high then value else low)
    else none

instance : Inhabited Draws := ⟨spread 0⟩

end Draws

end NodeScript
