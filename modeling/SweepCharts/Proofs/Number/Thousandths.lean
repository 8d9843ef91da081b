import SweepCharts.Proofs.Number.Arithmetic
import SweepCharts.Proofs.Number.Closest

set_option autoImplicit false

/-! # Rounding to three decimals

A double is multiplied by a thousand, rounded to a whole number and divided again. Only the product
can leave the finite doubles, and then the result is infinite, though the double is not.

* `isFinite_round`: rounding to a whole number keeps a finite double finite.
* `isFinite_toThousandths`: which finite doubles stay finite.
-/

namespace SweepCharts

theorem roundHalfUp_mul_le (num den : Nat) : 2 * (roundHalfUp num den * den) ≤ 2 * num + den := by
  have h := Nat.div_mul_le_self (2 * num + den) (2 * den)
  unfold roundHalfUp
  rw [Nat.mul_left_comm]
  exact h

namespace Binary64

/-- The largest finite double. -/
theorem magnitude_le {x : Binary64} (h : x.isFinite = true) :
    x.magnitude ≤ (2 ^ 54 - 2) * 2 ^ 2044 := by
  have hfinite : x.magnitudeBits < infinityBits := of_decide_eq_true h
  have hinfinity : infinityBits = 2047 * 2 ^ 52 := rfl
  have hbits : x.magnitudeBits ≤ 2045 * 2 ^ 52 + (2 ^ 53 - 1) := by omega
  have hle := strictMono_magnitudeOf.monotone hbits
  have hpower : (2 : Nat) ^ 2045 = 2 * 2 ^ 2044 := by rw [Nat.pow_add 2 1 2044, Nat.pow_one]
  have hdouble : (2 ^ 53 - 1) * 2 = 2 ^ 54 - 2 := rfl
  rw [magnitudeOf_add (by decide) (.inr (by decide)), hpower, ← Nat.mul_assoc, hdouble] at hle
  exact hle

variable {x : Binary64}

theorem isFinite_round (h : x.isFinite = true) : x.round.isFinite = true := by
  have hle := magnitude_le h
  have hround := roundHalfUp_mul_le x.magnitude (2 ^ 1074)
  have hunit : (2 : Nat) ^ 1074 < 2 ^ 2044 := Nat.pow_lt_pow_right (by decide) (by decide)
  unfold round
  rw [if_pos h, isFinite_ofQuotient _ Nat.one_pos, overflow, pow2_eq, Nat.one_mul]
  generalize (2 : Nat) ^ 2044 = large at *
  generalize (2 : Nat) ^ 1074 = unit at *
  omega

theorem isFinite_thousand : isFinite (1000 : Float) = true := by decide +kernel

theorem magnitude_thousand : magnitude (1000 : Float) = 1000 * 2 ^ 1074 := by decide +kernel

theorem isFinite_mul_thousand (h : x.isFinite = true) :
    isFinite (x * 1000 : Float) = true ↔ x.magnitude * 1000 < overflow := by
  have hpower : (2 : Nat) ^ 2148 = 2 ^ 1074 * 2 ^ 1074 := by rw [Nat.pow_add 2 1074 1074]
  have hpos : 0 < (2 : Nat) ^ 1074 * 2 ^ 1074 := Nat.mul_pos (Nat.two_pow_pos _) (Nat.two_pow_pos _)
  have hunits : x.magnitude * (1000 * 2 ^ 1074) * 2 ^ 1074 =
      2 ^ 1074 * 2 ^ 1074 * (x.magnitude * 1000) := by
    generalize (2 : Nat) ^ 1074 = unit
    ring
  rw [mul_eq h isFinite_thousand, isFinite_ofQuotient _ (Nat.two_pow_pos _), magnitude_thousand,
    hpower, hunits, Nat.mul_lt_mul_left hpos]

theorem isFinite_div_thousand (h : x.isFinite = true) : isFinite (x / 1000 : Float) = true := by
  have hne : significand (1000 : Float) ≠ 0 := by decide +kernel
  have hpos := Nat.two_pow_pos 1074
  have hlt : x.magnitude < 1000 * overflow := by
    have hle := magnitude_le h
    have hlarge := Nat.two_pow_pos 2044
    unfold overflow
    generalize (2 : Nat) ^ 2044 = large at *
    omega
  rw [div_eq h isFinite_thousand hne, magnitude_thousand,
    isFinite_ofQuotient _ (Nat.mul_pos (by decide) hpos), Nat.mul_right_comm,
    Nat.mul_lt_mul_right hpos]
  exact hlt

/-- An infinity stays infinite. -/
theorem isFinite_div_thousand_infinity (negative : Bool) :
    isFinite (ofMagnitudeBits negative infinityBits / 1000 : Float) = false := by
  revert negative
  decide +kernel

/-- A thousand times a value against the least value that is infinite. -/
theorem thousand_mul_absValue_lt :
    1000 * x.absValue < 2 ^ 1024 - 2 ^ 970 ↔ x.magnitude * 1000 < overflow := by
  have hquotient : 1000 * x.absValue = ((x.magnitude * 1000 : Nat) : ℚ) / (2 ^ 1074 : Nat) := by
    unfold absValue
    push_cast
    ring
  rw [hquotient, lt_overflow_iff (Nat.two_pow_pos _), Nat.mul_comm _ (2 ^ 1074),
    Nat.mul_lt_mul_left (Nat.two_pow_pos _)]

/-- **Which doubles stay finite** when they are rounded to three decimals. -/
theorem isFinite_toThousandths (h : x.isFinite = true) :
    x.toThousandths.isFinite = true ↔ 1000 * x.absValue < 2 ^ 1024 - 2 ^ 970 := by
  rw [thousand_mul_absValue_lt, ← isFinite_mul_thousand h]
  unfold toThousandths
  cases hproduct : isFinite (x * 1000 : Float) with
  | true => exact iff_of_true (isFinite_div_thousand (isFinite_round hproduct)) rfl
  | false =>
    have hnan : isNaN (x * 1000 : Float) = false := by
      rw [mul_eq h isFinite_thousand]
      exact isNaN_ofQuotient _ _ _
    have hround : round (x * 1000 : Float) = (x * 1000 : Float) := by
      unfold round
      rw [hproduct]
      rfl
    rw [hround, eq_infinity hproduct hnan, isFinite_div_thousand_infinity]

end Binary64

end SweepCharts
