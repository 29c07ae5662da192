import Mathlib.Algebra.Order.Group.Nat
import NodeScript.Double

/-!
The size of doubles that are rounded from integers. Main statement: `Double.isFinite_ofInt`: an
integer of at most 65 bits is far from the end of the range.
-/

set_option autoImplicit false
set_option relaxedAutoImplicit false

namespace NodeScript.Double

theorem magnitude_ofMagnitude {magnitude : Nat} (small : magnitude < signWeight) (negative : Bool) :
    (ofMagnitude negative magnitude).magnitude = magnitude := by
  unfold signWeight at small
  cases negative <;> simp [ofMagnitude, Double.magnitude, signWeight] <;> omega

theorem binaryExponent_one {n : Nat} (positive : n ≠ 0) : binaryExponent n 1 = n.log2 := by
  have reached : 2 ^ n.log2 ≤ n := Nat.log2_self_le positive
  have one : Nat.log2 1 = 0 := by decide
  simp [binaryExponent, Nat.shiftLeft_eq, reached, one]

theorem roundQuotient_le (num den : Nat) : roundQuotient num den ≤ num / den + 1 := by
  unfold roundQuotient
  dsimp only
  split
  · omega
  · split <;> omega

theorem roundScaled_le (n : Nat) : roundScaled n 1 ((n.log2 : Int) - 52) ≤ 2 ^ 53 := by
  have below : n < 2 ^ (n.log2 + 1) := Nat.lt_log2_self
  unfold roundScaled
  split
  · have digits : n.log2 + 1 = 53 + ((n.log2 : Int) - 52).toNat := by omega
    rw [digits, Nat.pow_add] at below
    rw [Nat.mul_comm _ _] at below
    have quotient := Nat.div_lt_of_lt_mul below
    have rounded := roundQuotient_le n (1 <<< ((n.log2 : Int) - 52).toNat)
    rw [Nat.one_shiftLeft] at rounded ⊢
    omega
  · have digits : 53 = n.log2 + 1 + (-((n.log2 : Int) - 52)).toNat := by omega
    have scaled : n <<< (-((n.log2 : Int) - 52)).toNat < 2 ^ 53 := by
      rw [digits, Nat.pow_add, Nat.shiftLeft_eq]
      exact Nat.mul_lt_mul_of_pos_right below (Nat.two_pow_pos _)
    have rounded := roundQuotient_le (n <<< (-((n.log2 : Int) - 52)).toNat) 1
    rw [Nat.div_one] at rounded
    omega

theorem nearestMagnitude_lt {n : Nat} (small : n < 2 ^ 65) :
    nearestMagnitude n 1 < infinityMagnitude := by
  unfold nearestMagnitude
  split
  · decide
  · rename_i positive
    have digits : n.log2 < 65 := (Nat.log2_lt positive).2 small
    have exponent : max ((n.log2 : Int) - 52) (-1074) = (n.log2 : Int) - 52 := by omega
    have rounded := roundScaled_le n
    rw [binaryExponent_one positive]
    simp only [exponent]
    unfold infinityMagnitude exponentWeight
    omega

/-- An integer of at most 65 bits is rounded to a finite number. -/
theorem isFinite_ofInt {i : Int} (small : i.natAbs < 2 ^ 65) : (ofInt i).isFinite = true := by
  have near := nearestMagnitude_lt small
  have most : infinityMagnitude < signWeight := by decide
  unfold ofInt ofDecimal isFinite
  rw [decide_eq_true_eq]
  split
  · rw [magnitude_ofMagnitude (by decide)]
    decide
  · have unit : i.natAbs * Nat.pow 10 0 = i.natAbs := Nat.mul_one _
    simp only [Int.le_refl, if_true, Int.toNat_zero]
    rw [if_neg (by decide), unit, magnitude_ofMagnitude (near.trans most)]
    exact near

end NodeScript.Double
