import SweepCharts.Proofs.Number.Closest
import SweepCharts.Proofs.Number.Grammar

set_option autoImplicit false

/-! # Decimals are rounded once

A decimal is the quotient of two whole numbers, and `ofQuotient` rounds a quotient correctly. The
answers that are given at once, without such a quotient, are those that it would give.

* `Decimal.toBinary64_eq`: the quotient that is rounded.
* `Decimal.roundsTo_toBinary64`: **a decimal is rounded correctly.**
* `Binary64.finite_read?_iff`: the finite doubles that are read.
-/

namespace SweepCharts

namespace Decimal

/-! ## Answers that are given at once -/

/-- A value far below the least double. -/
theorem tiny_lt {digits k : Nat} (h : digits.log2 + 400 < k) :
    2 * (digits * 2 ^ 1074) < 10 ^ k := by
  have hdigits : digits < 2 * 2 ^ digits.log2 := by
    rw [← Nat.pow_succ']
    exact Nat.lt_log2_self
  have hten : 2 ^ digits.log2 ≤ 10 ^ digits.log2 := Nat.pow_le_pow_left (by decide) _
  have hlarge : 2 * 2 * 2 ^ 1074 ≤ 10 ^ 400 := by decide +kernel
  calc 2 * (digits * 2 ^ 1074)
      = digits * (2 * 2 ^ 1074) := Nat.mul_left_comm _ _ _
    _ < 2 * 2 ^ digits.log2 * (2 * 2 ^ 1074) :=
      Nat.mul_lt_mul_of_pos_right hdigits (Nat.mul_pos Nat.two_pos (Nat.two_pow_pos _))
    _ = 2 ^ digits.log2 * (2 * 2 * 2 ^ 1074) := by ring
    _ ≤ 10 ^ digits.log2 * 10 ^ 400 := Nat.mul_le_mul hten hlarge
    _ = 10 ^ (digits.log2 + 400) := (Nat.pow_add _ _ _).symm
    _ ≤ 10 ^ k := Nat.pow_le_pow_right (by decide) (Nat.le_of_lt h)

/-- A value far above the largest double. -/
theorem overflow_le {digits k : Nat} (hdigits : digits ≠ 0) (h : 400 < k) :
    Binary64.overflow ≤ digits * 10 ^ k * 2 ^ 1074 := by
  have hlarge : Binary64.overflow ≤ 10 ^ 400 * 2 ^ 1074 := by decide +kernel
  refine Nat.le_trans hlarge (Nat.mul_le_mul_right _ ?_)
  calc 10 ^ 400
      ≤ 10 ^ k := Nat.pow_le_pow_right (by decide) (Nat.le_of_lt h)
    _ ≤ digits * 10 ^ k := Nat.le_mul_of_pos_left _ (Nat.pos_of_ne_zero hdigits)

/-- **The quotient that is rounded.** -/
theorem toBinary64_eq (d : Decimal) : d.toBinary64 =
    Binary64.ofQuotient d.negative (d.digits * 10 ^ d.exponent.toNat)
      (10 ^ (-d.exponent).toNat) := by
  have hpos : 0 < 10 ^ (-d.exponent).toNat := Nat.pow_pos (by decide)
  unfold toBinary64
  split
  · rename_i hzero
    have hsmall : 2 * (d.digits * 10 ^ d.exponent.toNat * 2 ^ 1074) < 10 ^ (-d.exponent).toNat := by
      rcases hzero with hzero | hlow
      · rw [hzero, Nat.zero_mul, Nat.zero_mul]
        exact hpos
      · have hexponent : d.exponent.toNat = 0 := by omega
        rw [hexponent, Nat.pow_zero, Nat.mul_one]
        exact tiny_lt (by omega)
    rw [Binary64.ofQuotient_eq, Binary64.nearestBits_of_lt hsmall]
  · rename_i hlow
    rw [not_or] at hlow
    split
    · rename_i hhigh
      have hexponent : (-d.exponent).toNat = 0 := by omega
      have hinfinite : ¬ (Binary64.ofQuotient d.negative (d.digits * 10 ^ d.exponent.toNat)
          (10 ^ (-d.exponent).toNat)).isFinite = true := by
        rw [Binary64.isFinite_ofQuotient _ hpos, hexponent, Nat.pow_zero, Nat.one_mul, Nat.not_lt]
        exact overflow_le hlow.1 (by omega)
      rw [Bool.not_eq_true] at hinfinite
      rw [Binary64.eq_infinity hinfinite (Binary64.isNaN_ofQuotient _ _ _),
        Binary64.isNegative_ofQuotient]
    · rfl

theorem absValue_eq_div (d : Decimal) : d.absValue =
    ((d.digits * 10 ^ d.exponent.toNat : Nat) : ℚ) / (10 ^ (-d.exponent).toNat : Nat) := by
  unfold absValue
  push_cast
  rcases Int.le_total 0 d.exponent with h | h
  · obtain ⟨k, hk⟩ := Int.eq_ofNat_of_zero_le h
    simp [hk]
  · obtain ⟨k, hk⟩ := Int.eq_ofNat_of_zero_le (Int.neg_nonneg_of_nonpos h)
    have hexponent : d.exponent = -(k : Int) := by omega
    simp [hexponent, div_eq_mul_inv]

/-- **A decimal is rounded correctly.** -/
theorem roundsTo_toBinary64 (d : Decimal) :
    Binary64.RoundsTo d.negative d.absValue d.toBinary64 := by
  rw [toBinary64_eq, absValue_eq_div]
  exact Binary64.roundsTo_ofQuotient _ _ (Nat.pow_pos (by decide))

end Decimal

/-! ## The doubles that are read -/

namespace Binary64

/-- A word never names a finite double. -/
theorem isFinite_ofWord? {negative : Bool} {word : List Char} {x : Binary64}
    (h : ofWord? negative word = some x) : x.isFinite = false := by
  unfold ofWord? at h
  dsimp only at h
  split at h
  · obtain rfl := Option.some.inj h
    cases negative <;> decide +kernel
  · split at h
    · obtain rfl := Option.some.inj h
      decide +kernel
    · cases h

/-- **The finite doubles that are read** are those of decimals. -/
theorem finite_read?_iff {text : List Char} {x : Binary64} :
    (read? text).filter isFinite = some x ↔
      ∃ negative value, WritesDecimal text negative value ∧ RoundsTo negative value x ∧
        x.isFinite = true := by
  rw [Option.filter_eq_some_iff]
  unfold read?
  constructor
  · rintro ⟨hread, hfinite⟩
    split at hread
    · rename_i d hd
      obtain rfl := Option.some.inj hread
      exact ⟨d.negative, d.absValue, writesDecimal_iff.2 ⟨d, hd, rfl, rfl⟩,
        d.roundsTo_toBinary64, hfinite⟩
    · rw [isFinite_ofWord? hread] at hfinite
      cases hfinite
  · rintro ⟨negative, value, htext, hrounds, hfinite⟩
    obtain ⟨d, hd, rfl, rfl⟩ := writesDecimal_iff.1 htext
    rw [hd]
    exact ⟨congrArg some (d.roundsTo_toBinary64.unique hrounds), hfinite⟩

end Binary64

end SweepCharts
