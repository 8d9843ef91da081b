import Mathlib
import SweepCharts.Number.Binary64

set_option autoImplicit false

/-! # The bits of a double

The magnitude bits of a double are an exponent field above a fraction, but they can be read in one
go: `place * 2 ^ 52 + significand` stands for `significand * 2 ^ place`, also if the significand is
`2 ^ 53` and carries into the exponent. So the next bits stand for the next magnitude, and larger
bits for a larger one.

* `toBits_ofBits`: bits that are not those of a NaN are kept.
* `magnitudeOf_add`: what magnitude bits stand for; `exists_place`: all bits are of this form.
* `strictMono_magnitudeOf`: magnitudes are ordered like their bits.
-/

namespace SweepCharts

theorem pow2_eq (n : Nat) : pow2 n = 2 ^ n := rfl

theorem pow2_pos (n : Nat) : 0 < pow2 n := Nat.two_pow_pos n

namespace Binary64

/-! ## Bits that are kept -/

open Float.Model UnpackedFloat in
theorem toBits_ofBits {bits : UInt64} (h : bits.toNat % 2 ^ 63 ≤ 2047 * 2 ^ 52) :
    (Float.ofBits bits).toBits = bits := by
  have hvalid : Format.binary64.Valid bits.toBitVec := by
    refine ⟨fun hexponent hmantissa => absurd ?_ hmantissa⟩
    have hfield := congrArg BitVec.toNat hexponent
    rw [← BitVec.toNat_inj]
    simp [unpackExponent, unpackMantissa, BitVec.extractLsb_toNat, Nat.shiftRight_eq_div_pow]
      at hfield ⊢
    omega
  exact congrArg Float.toBits (Float.ofBits_toBits (Float.ofModel ⟨bits, hvalid⟩))

theorem ext_toBits {x y : Binary64} (h : x.toBits.toNat = y.toBits.toNat) : x = y := by
  obtain ⟨⟨xbits, hx⟩⟩ := x
  obtain ⟨⟨ybits, hy⟩⟩ := y
  obtain rfl : xbits = ybits := UInt64.toNat_inj.1 h
  rfl

variable (negative : Bool) (bits : Nat)

theorem toNat_toBits_ofMagnitudeBits :
    (ofMagnitudeBits negative bits).toBits.toNat =
      (if negative then 2 ^ 63 else 0) + min bits (2047 * 2 ^ 52) := by
  have hnat : (UInt64.ofNat ((if negative then pow2 63 else 0) + min bits infinityBits)).toNat =
      (if negative then 2 ^ 63 else 0) + min bits (2047 * 2 ^ 52) := by
    rw [UInt64.toNat_ofNat', infinityBits, pow2_eq, pow2_eq]
    split <;> omega
  rw [ofMagnitudeBits, toBits_ofBits, hnat]
  rw [hnat]
  split <;> omega

@[simp] theorem magnitudeBits_ofMagnitudeBits :
    (ofMagnitudeBits negative bits).magnitudeBits = min bits infinityBits := by
  rw [magnitudeBits, toNat_toBits_ofMagnitudeBits, infinityBits, pow2_eq, pow2_eq]
  split <;> omega

@[simp] theorem isNegative_ofMagnitudeBits :
    (ofMagnitudeBits negative bits).isNegative = negative := by
  rw [isNegative, toNat_toBits_ofMagnitudeBits, pow2_eq]
  cases negative
  · simp only [Bool.false_eq_true, if_false, decide_eq_false_iff_not]
    omega
  · simp only [if_true, decide_eq_true_eq]
    omega

@[simp] theorem isNaN_ofMagnitudeBits : (ofMagnitudeBits negative bits).isNaN = false := by
  simp [isNaN]

theorem isFinite_ofMagnitudeBits :
    (ofMagnitudeBits negative bits).isFinite = true ↔ bits < infinityBits := by
  simp [isFinite]

/-- A double is its sign and its magnitude bits. -/
theorem ext_magnitudeBits {x y : Binary64} (hsign : x.isNegative = y.isNegative)
    (hbits : x.magnitudeBits = y.magnitudeBits) : x = y := by
  have hx := x.toBits.toNat_lt
  have hy := y.toBits.toNat_lt
  unfold isNegative at hsign
  unfold magnitudeBits at hbits
  rw [pow2_eq] at hsign hbits
  rw [decide_eq_decide] at hsign
  exact ext_toBits (by omega)

/-- What is neither finite nor a NaN is an infinity. -/
theorem eq_infinity {x : Binary64} (hfinite : x.isFinite = false) (hnan : x.isNaN = false) :
    x = ofMagnitudeBits x.isNegative infinityBits := by
  have hge := of_decide_eq_false hfinite
  have hle := of_decide_eq_false hnan
  refine ext_magnitudeBits (isNegative_ofMagnitudeBits _ _).symm ?_
  rw [magnitudeBits_ofMagnitudeBits]
  omega

/-! ## What magnitude bits stand for -/

/-- The magnitude that magnitude bits stand for, in units of `2 ^ -1074`. -/
def magnitudeOf (bits : Nat) : Nat :=
  (if bits < 2 ^ 53 then bits else 2 ^ 52 + bits % 2 ^ 52) * 2 ^ (bits / 2 ^ 52 - 1)

theorem magnitude_eq (x : Binary64) : x.magnitude = magnitudeOf x.magnitudeBits := rfl

/-- A significand of `2 ^ 53` has its leading bit one place above. -/
theorem magnitudeOf_add {place significand : Nat} (hle : significand ≤ 2 ^ 53)
    (hnormal : place = 0 ∨ 2 ^ 52 ≤ significand) :
    magnitudeOf (place * 2 ^ 52 + significand) = significand * 2 ^ place := by
  unfold magnitudeOf
  rcases Nat.lt_or_eq_of_le hle with hlt | rfl
  · rcases hnormal with rfl | hnormal
    · have hshift : (0 * 2 ^ 52 + significand) / 2 ^ 52 - 1 = 0 := by omega
      rw [hshift, if_pos (by omega), Nat.zero_mul, Nat.zero_add]
    · have hshift : (place * 2 ^ 52 + significand) / 2 ^ 52 - 1 = place := by omega
      have hfraction : 2 ^ 52 + (place * 2 ^ 52 + significand) % 2 ^ 52 = significand := by omega
      rw [hshift, hfraction]
      split
      · have hplace : place = 0 := by omega
        rw [hplace, Nat.zero_mul, Nat.zero_add]
      · rfl
  · have hshift : (place * 2 ^ 52 + 2 ^ 53) / 2 ^ 52 - 1 = place + 1 := by omega
    have hfraction : 2 ^ 52 + (place * 2 ^ 52 + 2 ^ 53) % 2 ^ 52 = 2 ^ 52 := by omega
    have hcarry : 2 ^ 52 * 2 ^ (place + 1) = 2 ^ 53 * 2 ^ place := by
      rw [← Nat.pow_add, ← Nat.pow_add]
      exact congrArg (2 ^ ·) (by omega)
    rw [hshift, if_neg (by omega), hfraction, hcarry]

/-- Magnitude bits as a significand at its place. -/
theorem exists_place (bits : Nat) : ∃ place significand,
    bits = place * 2 ^ 52 + significand ∧ significand < 2 ^ 53 ∧
      (place = 0 ∨ 2 ^ 52 ≤ significand) := by
  refine ⟨bits / 2 ^ 52 - 1, bits - (bits / 2 ^ 52 - 1) * 2 ^ 52, ?_, ?_, ?_⟩ <;> omega

/-- **Magnitudes are ordered like their bits.** -/
theorem strictMono_magnitudeOf : StrictMono magnitudeOf := by
  refine strictMono_nat_of_lt_succ fun bits => ?_
  obtain ⟨place, significand, rfl, hlt, hnormal⟩ := exists_place bits
  have hnext : magnitudeOf (place * 2 ^ 52 + significand + 1) = (significand + 1) * 2 ^ place := by
    rw [Nat.add_assoc]
    exact magnitudeOf_add hlt (hnormal.imp_right Nat.le_succ_of_le)
  rw [hnext, magnitudeOf_add (Nat.le_of_lt hlt) hnormal]
  exact Nat.mul_lt_mul_of_pos_right (Nat.lt_succ_self _) (Nat.two_pow_pos place)

/-- Magnitude bits beyond an infinity are those of the infinity. -/
theorem magnitude_ofMagnitudeBits :
    (ofMagnitudeBits negative bits).magnitude =
      min (magnitudeOf bits) (magnitudeOf infinityBits) := by
  rw [magnitude_eq, magnitudeBits_ofMagnitudeBits]
  exact strictMono_magnitudeOf.monotone.map_min

/-- A finite double has a smaller magnitude than an infinity. -/
theorem isFinite_iff_magnitude_lt {x : Binary64} :
    x.isFinite = true ↔ x.magnitude < magnitudeOf infinityBits := by
  rw [magnitude_eq, strictMono_magnitudeOf.lt_iff_lt, isFinite, decide_eq_true_eq]

end Binary64

end SweepCharts
