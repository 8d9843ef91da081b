import SweepCharts.Proofs.Number.Nearest

set_option autoImplicit false

/-! # Products and quotients of doubles

A product or a quotient is computed on unpacked doubles: a sign, a mantissa and an exponent. The
exact mantissa is cut at the place of the last bit that is kept, with the bit after it and whether
anything stands beyond, and is rounded there. So it is rounded once, as the exact quotient of two
whole numbers, and the result is the double nearest to it.

* `roundHalfEven_congr`, `nearestBits_congr`: equal quotients are rounded alike.
* `roundedMantissa_extended`: a mantissa that was cut is rounded like the quotient.
* `hasBits_roundWithAccuracy`: what rounding an unpacked double gives.
* `mul_eq`, `div_eq`: products and quotients are rounded once.
-/

namespace SweepCharts

/-! ## Equal quotients -/

theorem roundHalfEven_scale {num den c : Nat} (hc : 0 < c) :
    roundHalfEven (num * c) (den * c) = roundHalfEven num den := by
  have hless : ∀ a b : Nat, 2 * (a * c) < b * c ↔ 2 * a < b := fun a b => by
    rw [← Nat.mul_assoc, Nat.mul_lt_mul_right hc]
  have hmore : ∀ a b : Nat, a * c < 2 * (b * c) ↔ a < 2 * b := fun a b => by
    rw [← Nat.mul_assoc, Nat.mul_lt_mul_right hc]
  unfold roundHalfEven
  dsimp only
  rw [Nat.mul_mod_mul_right, Nat.mul_div_mul_right _ _ hc]
  simp only [hless, hmore]

theorem roundHalfEven_congr {num den num' den' : Nat} (hden : 0 < den) (hden' : 0 < den')
    (h : num * den' = num' * den) : roundHalfEven num den = roundHalfEven num' den' := by
  rw [← roundHalfEven_scale hden', h, Nat.mul_comm den, roundHalfEven_scale hden]

theorem div_congr {num den num' den' : Nat} (hden : 0 < den) (hden' : 0 < den')
    (h : num * den' = num' * den) : num / den = num' / den' := by
  rw [← Nat.mul_div_mul_right num den hden', h, Nat.mul_comm den, Nat.mul_div_mul_right _ _ hden]

namespace Binary64

/-- Equal quotients are rounded alike. -/
theorem nearestBits_congr {units den units' den' : Nat} (hden : 0 < den)
    (hden' : 0 < den') (h : units * den' = units' * den) :
    nearestBits units den = nearestBits units' den' := by
  unfold nearestBits place
  rw [div_congr hden hden' h]
  congr 1
  refine roundHalfEven_congr (Nat.mul_pos hden (Nat.two_pow_pos _))
    (Nat.mul_pos hden' (Nat.two_pow_pos _)) ?_
  rw [← Nat.mul_assoc, h, Nat.mul_assoc]

/-! ## Mantissas -/

open Float.Model UnpackedFloat

/-- A quotient as its whole part, the bit after it, and whether there is anything beyond. -/
def extended (num den : Nat) : ExtendedMantissa where
  mantissa := num / den
  roundBit := decide (den ≤ 2 * (num % den))
  stickyBit := decide (2 * (num % den) % den ≠ 0)

theorem ofMantissaAndAccuracy_eq {num den : Nat} (hden : 0 < den) :
    ExtendedMantissa.ofMantissaAndAccuracy (num / den) (accuracyOfFraction (num % den) den) =
      extended num den := by
  have hlt := Nat.mod_lt num hden
  unfold extended accuracyOfFraction
  generalize num % den = rest at hlt
  by_cases hzero : rest = 0
  · subst hzero
    simp [ExtendedMantissa.ofMantissaAndAccuracy, Nat.not_le.2 hden]
  · rw [if_neg hzero]
    rcases Nat.lt_trichotomy (2 * rest) den with h | h | h
    · have hmod : 2 * rest % den = 2 * rest := Nat.mod_eq_of_lt h
      rw [Nat.compare_eq_lt.2 h]
      simp [ExtendedMantissa.ofMantissaAndAccuracy, hmod, hzero, Nat.not_le.2 h]
    · rw [Nat.compare_eq_eq.2 h]
      simp [ExtendedMantissa.ofMantissaAndAccuracy, h]
    · have hmod : 2 * rest % den = 2 * rest - den := by
        rw [Nat.mod_eq_sub_mod (Nat.le_of_lt h), Nat.mod_eq_of_lt (by omega)]
      have hne : 2 * rest - den ≠ 0 := by omega
      rw [Nat.compare_eq_gt.2 h]
      simp [ExtendedMantissa.ofMantissaAndAccuracy, hmod, hne, Nat.le_of_lt h]

theorem stickyBit_or {rest den : Nat} (hlt : rest < den) :
    (decide (den ≤ 2 * rest) || decide (2 * rest % den ≠ 0)) = decide (rest ≠ 0) := by
  rcases Nat.lt_or_ge (2 * rest) den with h | h
  · rw [Nat.mod_eq_of_lt h]
    simp [Nat.not_le.2 h]
  · have hne : rest ≠ 0 := by omega
    simp [h, hne]

theorem shiftRightOne_extended {num den : Nat} (hden : 0 < den) :
    (extended num den).shiftRightOne = extended num (den * 2) := by
  have hlt := Nat.mod_lt num hden
  have hmod : num % (den * 2) = num % den + den * (num / den % 2) := Nat.mod_mul
  have hbit := Nat.mod_two_eq_zero_or_one (num / den)
  unfold ExtendedMantissa.shiftRightOne extended
  dsimp only
  rw [stickyBit_or hlt, Nat.div_div_eq_div_mul, hmod]
  generalize num % den = rest at hlt
  congr 1
  · rcases hbit with h | h
    · rw [h, Nat.mul_zero, Nat.add_zero, bne_self_eq_false, eq_comm, decide_eq_false_iff_not]
      omega
    · rw [h, Nat.mul_one, eq_comm]
      exact decide_eq_true (by omega)
  · congr 1
    rcases hbit with h | h
    · rw [h, Nat.mul_zero, Nat.add_zero, Nat.mod_eq_of_lt (by omega)]
      simp
    · have hsplit : 2 * (rest + den * 1) = 2 * rest + den * 2 := by omega
      rw [h, hsplit, Nat.add_mod_right, Nat.mod_eq_of_lt (by omega)]
      simp

theorem shiftRight_extended (num : Nat) {den : Nat} (hden : 0 < den) (k : Nat) :
    extended num den >>> k = extended num (den * 2 ^ k) := by
  change k.repeat ExtendedMantissa.shiftRightOne (extended num den) = _
  induction k with
  | zero => rw [Nat.pow_zero, Nat.mul_one, Nat.repeat]
  | succ k ih =>
    rw [Nat.repeat, ih, shiftRightOne_extended (Nat.mul_pos hden (Nat.two_pow_pos k)), Nat.pow_succ,
      Nat.mul_assoc]

/-- An extended mantissa is rounded like the quotient. -/
theorem roundedMantissa_extended {num den : Nat} (hden : 0 < den) :
    (extended num den).roundedMantissa = roundHalfEven num den := by
  unfold ExtendedMantissa.roundedMantissa
  rw [← ofMantissaAndAccuracy_eq hden]
  unfold accuracyOfFraction roundHalfEven
  dsimp only
  by_cases hzero : num % den = 0
  · rw [if_pos hzero, if_pos (by omega)]
    rfl
  · rw [if_neg hzero]
    rcases Nat.lt_trichotomy (2 * (num % den)) den with h | h | h
    · rw [Nat.compare_eq_lt.2 h, if_pos h]
      rfl
    · rw [Nat.compare_eq_eq.2 h, if_neg (by omega), if_neg (by omega)]
      rfl
    · rw [Nat.compare_eq_gt.2 h, if_neg (by omega), if_pos h]
      rfl

/-! ## Exponents -/

theorem targetExponent_eq (mantissa : Nat) (exponent : Int) :
    Format.binary64.targetExponent (totalExponent mantissa exponent) =
      max (mantissa.log2 + exponent - 52) (-1074) := by
  have hbits : (Format.binary64.mantissaBits : Int) = 53 := rfl
  have hmin : Format.binary64.minExponent = -1074 := rfl
  unfold Format.targetExponent totalExponent
  rw [hbits, hmin]
  omega

theorem shiftToTargetExponent_eq {num den k p : Nat} {exponent : Int} (hden : 0 < den)
    (htarget : max (((num / den).log2 : Int) + exponent - 52) (-1074) = (p : Int) - 1074)
    (hk : exponent + k = (p : Int) - 1074) :
    shiftToTargetExponent Format.binary64 (num / den) exponent
        (accuracyOfFraction (num % den) den) =
      (extended num (den * 2 ^ k), (p : Int) - 1074) := by
  have hshift : ((p : Int) - 1074 - exponent).toNat = k := by omega
  unfold shiftToTargetExponent shiftToExponent
  dsimp only
  rw [targetExponent_eq, htarget, hshift, ofMantissaAndAccuracy_eq hden,
    shiftRight_extended num hden, hk]

/-- A mantissa that needs no rounding. -/
theorem shiftToTargetExponent_exact {m k p : Nat} {exponent : Int}
    (htarget : max ((m.log2 : Int) + exponent - 52) (-1074) = (p : Int) - 1074)
    (hk : exponent + k = (p : Int) - 1074) :
    shiftToTargetExponent Format.binary64 m exponent .exact =
      (extended m (2 ^ k), (p : Int) - 1074) := by
  rw [← Nat.div_one m] at htarget
  have h := shiftToTargetExponent_eq Nat.one_pos htarget hk
  rw [Nat.div_one, Nat.mod_one, Nat.one_mul] at h
  exact h

theorem log2_scaled {num den : Nat} (hden : 0 < den) (h : num / den ≠ 0) (k : Nat) :
    (num * 2 ^ k / den).log2 = (num / den).log2 + k := by
  have hdown := Nat.log2_self_le h
  have hup := (Nat.lt_log2_self (n := num / den))
  rw [Nat.le_div_iff_mul_le hden] at hdown
  rw [Nat.div_lt_iff_lt_mul hden] at hup
  have hle : 2 ^ ((num / den).log2 + k) ≤ num * 2 ^ k / den := by
    rw [Nat.le_div_iff_mul_le hden, Nat.pow_add, Nat.mul_right_comm]
    exact Nat.mul_le_mul_right _ hdown
  have hlt : num * 2 ^ k / den < 2 ^ ((num / den).log2 + k + 1) := by
    rw [Nat.div_lt_iff_lt_mul hden, Nat.add_right_comm, Nat.pow_add, Nat.mul_right_comm]
    exact Nat.mul_lt_mul_of_pos_right hup (Nat.two_pow_pos k)
  have hne : num * 2 ^ k / den ≠ 0 :=
    Nat.pos_iff_ne_zero.1 (Nat.lt_of_lt_of_le (Nat.two_pow_pos _) hle)
  exact (Nat.log2_eq_iff hne).2 ⟨hle, hlt⟩

theorem log2_div_two_pow (n k : Nat) : (n / 2 ^ k).log2 = n.log2 - k := by
  rw [Nat.log2_eq_log_two, Nat.log2_eq_log_two, Nat.log_div_base_pow]

/-- The place of a quotient is the one at which the mantissa is rounded. -/
theorem target_eq_place {num den i j : Nat} {exponent : Int} (hden : 0 < den)
    (hexponent : exponent + 1074 = (i : Int) - j)
    (hprecise : exponent ≤ -1074 ∨ 2 ^ 52 ≤ num / den) :
    max (((num / den).log2 : Int) + exponent - 52) (-1074) =
      (place (num * 2 ^ i) (den * 2 ^ j) : Int) - 1074 := by
  unfold place
  rcases Nat.lt_or_ge i j with hlt | hge
  · obtain ⟨k, rfl⟩ := Nat.exists_eq_add_of_lt hlt
    have hquotient : num * 2 ^ i / (den * 2 ^ (i + k + 1)) = num / den / 2 ^ (k + 1) := by
      rw [Nat.add_assoc, Nat.pow_add, Nat.mul_left_comm, Nat.mul_comm num,
        Nat.mul_div_mul_left _ _ (Nat.two_pow_pos i), Nat.div_div_eq_div_mul]
    rw [hquotient, log2_div_two_pow]
    omega
  · obtain ⟨k, rfl⟩ := Nat.exists_eq_add_of_le hge
    have hquotient : num * 2 ^ (j + k) / (den * 2 ^ j) = num * 2 ^ k / den := by
      rw [Nat.pow_add, Nat.mul_left_comm, Nat.mul_comm den,
        Nat.mul_div_mul_left _ _ (Nat.two_pow_pos j)]
    rw [hquotient]
    by_cases hzero : num / den = 0
    · have hk : k = 0 := by omega
      subst hk
      rw [Nat.pow_zero, Nat.mul_one, hzero]
      omega
    · rw [log2_scaled hden hzero]
      omega

/-! ## Bits of an unpacked double -/

/-- A significand at its place. -/
structure Fits (place significand : Nat) : Prop where
  lt : significand < 2 ^ 53
  normal : place = 0 ∨ 2 ^ 52 ≤ significand

/-- The sign with this sign bit. -/
def signOf (negative : Bool) : Sign := if negative then .negative else .positive

/-- The unpacked double of a significand at its place. -/
def unpacked (negative : Bool) (place significand : Nat) : UnpackedFloat :=
  if h : significand = 0 then .zero (signOf negative)
  else .finite (signOf negative) significand ((place : Int) - 1074) (Nat.pos_of_ne_zero h)

theorem unpacked_of_ne_zero {negative : Bool} {place significand : Nat} (h : significand ≠ 0) :
    unpacked negative place significand =
      .finite (signOf negative) significand ((place : Int) - 1074) (Nat.pos_of_ne_zero h) :=
  dif_neg h

/-- An unpacked double with these magnitude bits, which may be beyond those of an infinity. -/
def HasBits (u : UnpackedFloat) (negative : Bool) (bits : Nat) : Prop :=
  ∃ place significand, Fits place significand ∧ bits = place * 2 ^ 52 + significand ∧
    u = unpacked negative place significand

theorem hasBits_zero (negative : Bool) : HasBits (.zero (signOf negative)) negative 0 :=
  ⟨0, 0, ⟨by decide, .inl rfl⟩, rfl, rfl⟩

/-- Rounding at a place, where the significand may carry. -/
theorem hasBits_round (negative : Bool) {num den k p : Nat} {exponent : Int} (hden : 0 < den)
    (htarget : max (((num / den).log2 : Int) + exponent - 52) (-1074) = (p : Int) - 1074)
    (hk : exponent + k = (p : Int) - 1074)
    (hle : roundHalfEven num (den * 2 ^ k) ≤ 2 ^ 53)
    (hnormal : p = 0 ∨ 2 ^ 52 ≤ roundHalfEven num (den * 2 ^ k)) :
    HasBits (roundWithAccuracy Format.binary64 (signOf negative) (num / den) exponent
      (accuracyOfFraction (num % den) den)) negative
        (p * 2 ^ 52 + roundHalfEven num (den * 2 ^ k)) := by
  have hpos : 0 < den * 2 ^ k := Nat.mul_pos hden (Nat.two_pow_pos k)
  unfold roundWithAccuracy
  rw [shiftToTargetExponent_eq hden htarget hk]
  dsimp only
  rw [roundedMantissa_extended hpos]
  generalize roundHalfEven num (den * 2 ^ k) = rounded at hle hnormal
  rcases Nat.lt_or_eq_of_le hle with hlt | rfl
  · have hlog : max ((rounded.log2 : Int) + ((p : Int) - 1074) - 52) (-1074) =
        (p : Int) - 1074 := by
      by_cases hzero : rounded = 0
      · have hp : p = 0 := by omega
        subst hzero hp
        decide
      · have hup := (Nat.log2_lt hzero).2 hlt
        rcases hnormal with rfl | hnormal
        · omega
        · have hdown := (Nat.le_log2 hzero).2 hnormal
          omega
    refine ⟨p, rounded, ⟨hlt, hnormal⟩, rfl, ?_⟩
    rw [shiftToTargetExponent_exact hlog (k := 0) (by omega)]
    simp only [extended, Nat.pow_zero, Nat.div_one, unpacked]
  · -- the carry moves the leading bit one place up
    have hlog : max (((2 ^ 53 : Nat).log2 : Int) + ((p : Int) - 1074) - 52) (-1074) =
        ((p + 1 : Nat) : Int) - 1074 := by
      rw [Nat.log2_two_pow]
      omega
    refine ⟨p + 1, 2 ^ 52, ⟨by decide, .inr (Nat.le_refl _)⟩, by omega, ?_⟩
    rw [shiftToTargetExponent_exact hlog (k := 1) (by omega)]
    rfl

/-- **What rounding gives**, if no bit of the exact value is below the last bit that is kept. -/
theorem hasBits_roundWithAccuracy (negative : Bool) {num den i j : Nat} {exponent : Int}
    (hden : 0 < den) (hexponent : exponent + 1074 = (i : Int) - j)
    (hprecise : exponent ≤ -1074 ∨ 2 ^ 52 ≤ num / den) :
    HasBits (roundWithAccuracy Format.binary64 (signOf negative) (num / den) exponent
      (accuracyOfFraction (num % den) den)) negative
        (nearestBits (num * 2 ^ i) (den * 2 ^ j)) := by
  have htarget := target_eq_place hden hexponent hprecise
  obtain ⟨hle, hnormal⟩ := significand_bounds (num * 2 ^ i) (den * 2 ^ j)
  unfold nearestBits
  generalize place (num * 2 ^ i) (den * 2 ^ j) = p at *
  have hlow : exponent ≤ (p : Int) - 1074 := by
    rcases hprecise with h | h
    · omega
    · have hlog := (Nat.le_log2 (by omega)).2 h
      omega
  obtain ⟨k, hk⟩ := Int.le.dest hlow
  have hsame : roundHalfEven (num * 2 ^ i) (den * 2 ^ j * 2 ^ p) =
      roundHalfEven num (den * 2 ^ k) := by
    have hpowers : i + k = j + p := by omega
    refine roundHalfEven_congr (by positivity) (by positivity) ?_
    calc num * 2 ^ i * (den * 2 ^ k)
        = num * den * 2 ^ (i + k) := by ring
      _ = num * den * 2 ^ (j + p) := by rw [hpowers]
      _ = num * (den * 2 ^ j * 2 ^ p) := by ring
  rw [hsame] at hle hnormal ⊢
  exact hasBits_round negative hden htarget hk hle hnormal

/-! ## Packing -/

theorem toNat_append {m n : Nat} (x : BitVec m) (y : BitVec n) :
    (x ++ y).toNat = x.toNat * 2 ^ n + y.toNat := by
  rw [BitVec.toNat_append, ← Nat.shiftLeft_add_eq_or_of_lt y.isLt, Nat.shiftLeft_eq]

theorem toNat_packComponents (negative : Bool) (exponent : BitVec 11) (mantissa : BitVec 52) :
    (packComponents Format.binary64 (signOf negative) exponent mantissa).toNat =
      (if negative then 2 ^ 63 else 0) + (exponent.toNat * 2 ^ 52 + mantissa.toNat) := by
  have hsign : (signOf negative).toBitVec.toNat * 2 ^ (11 + 52) =
      if negative then 2 ^ 63 else 0 := by cases negative <;> rfl
  have hparts : (packComponents Format.binary64 (signOf negative) exponent mantissa).toNat =
      ((signOf negative).toBitVec.toNat * 2 ^ 11 + exponent.toNat) * 2 ^ 52 + mantissa.toNat := by
    unfold packComponents
    rw [toNat_append, toNat_append]
  rw [hparts, Nat.add_mul, Nat.mul_assoc, Nat.add_assoc, ← Nat.pow_add, hsign]

theorem toNat_pack_unpacked (negative : Bool) {place significand : Nat}
    (h : Fits place significand) :
    (UnpackedFloat.pack Format.binary64 (unpacked negative place significand)).toNat =
      (if negative then 2 ^ 63 else 0) + min (place * 2 ^ 52 + significand) (2047 * 2 ^ 52) := by
  obtain ⟨hlt, hnormal⟩ := h
  have hbias : ((place : Int) - 1074 + Format.binary64.exponentBias +
      Format.binary64.mantissaBitsWithoutImplicit).toNat = place + 1 := by
    have hconst : (Format.binary64.exponentBias : Int) +
      Format.binary64.mantissaBitsWithoutImplicit = 1075 := rfl
    omega
  by_cases hzero : significand = 0
  · have hplace : place = 0 := by omega
    subst hzero hplace
    exact toNat_packComponents negative 0 0
  · rw [unpacked_of_ne_zero hzero]
    unfold UnpackedFloat.pack
    dsimp only
    rw [hbias]
    by_cases hlarge : 2 ^ 11 ≤ place + 1 + 1
    · have hinfinity : 2047 * 2 ^ 52 ≤ place * 2 ^ 52 + significand := by omega
      rw [if_pos hlarge, Nat.min_eq_right hinfinity]
      exact toNat_packComponents negative _ 0
    · have hbits : Format.binary64.mantissaBits = 53 := rfl
      rw [if_neg hlarge, hbits]
      by_cases hleading : 2 ^ 52 ≤ significand
      · have hlog : significand.log2 + 1 = 53 := by
          rw [(Nat.log2_eq_iff hzero).2 ⟨hleading, hlt⟩]
        rw [if_pos hlog, toNat_packComponents, BitVec.toNat_ofNat, BitVec.toNat_ofNat]
        omega
      · have hlog : significand.log2 + 1 ≠ 53 := by
          have h := (Nat.log2_lt hzero).2 (Nat.not_le.1 hleading)
          omega
        rw [if_neg hlog, toNat_packComponents, BitVec.toNat_ofNat, BitVec.toNat_ofNat]
        omega

/-- **An unpacked double is packed into its bits**, or into those of an infinity. -/
theorem HasBits.ofModel_pack {u : UnpackedFloat} {negative : Bool} {bits : Nat}
    (h : HasBits u negative bits) :
    Float.ofModel (Float.Model.pack u) = ofMagnitudeBits negative bits := by
  obtain ⟨place, significand, hfits, rfl, rfl⟩ := h
  refine ext_toBits ?_
  rw [toNat_toBits_ofMagnitudeBits, ← toNat_pack_unpacked negative hfits]
  rfl

/-! ## Unpacking -/

theorem toNat_unpackMantissa (x : Binary64) :
    (@unpackMantissa Format.binary64 x.toBits.toBitVec).toNat =
      x.magnitudeBits % 2 ^ 52 := by
  unfold magnitudeBits
  simp [unpackMantissa, BitVec.extractLsb_toNat, pow2_eq]

theorem toNat_unpackExponent (x : Binary64) :
    (@unpackExponent Format.binary64 x.toBits.toBitVec).toNat =
      x.magnitudeBits / 2 ^ 52 := by
  unfold magnitudeBits
  simp only [unpackExponent, BitVec.cast_eq, BitVec.extractLsb_toNat, UInt64.toNat_toBitVec,
    Nat.shiftRight_eq_div_pow, pow2_eq, Nat.reduceAdd, Nat.reduceSub, Nat.reducePow]
  omega

theorem ofBitVec_unpackSign (x : Binary64) :
    Sign.ofBitVec (@unpackSign Format.binary64 x.toBits.toBitVec) =
      signOf x.isNegative := by
  have hlt := x.toBits.toNat_lt
  have hsign : @unpackSign Format.binary64 x.toBits.toBitVec = 0#1 ↔
      ¬ x.isNegative = true := by
    unfold isNegative
    rw [← BitVec.toNat_inj, pow2_eq, decide_eq_true_eq]
    simp only [unpackSign, BitVec.cast_eq, BitVec.extractLsb_toNat, BitVec.toNat_ofNat,
      UInt64.toNat_toBitVec, Nat.shiftRight_eq_div_pow, Nat.reduceAdd, Nat.reduceSub, Nat.reducePow]
    omega
  unfold Sign.ofBitVec signOf
  simp only [hsign, ite_not]

theorem finite_eq_unpacked {negative : Bool} {mantissa place significand : Nat} {exponent : Int}
    (hpos : 0 < mantissa) (hmantissa : mantissa = significand)
    (hexponent : exponent = (place : Int) - 1074) :
    UnpackedFloat.finite (signOf negative) mantissa exponent hpos =
      unpacked negative place significand := by
  subst hmantissa hexponent
  rw [unpacked_of_ne_zero hpos.ne']

/-- **A finite double is unpacked into its significand at its place.** -/
theorem unpack_eq {x : Binary64} (h : x.isFinite = true) :
    x.toModel.unpack = unpacked x.isNegative x.shift x.significand := by
  have hfinite : x.magnitudeBits < 2047 * 2 ^ 52 := by
    rw [isFinite, infinityBits, pow2_eq, decide_eq_true_eq] at h
    exact h
  have hsignificand : x.significand =
      if x.magnitudeBits < 2 ^ 53 then x.magnitudeBits else 2 ^ 52 + x.magnitudeBits % 2 ^ 52 := rfl
  have hshift : x.shift = x.magnitudeBits / 2 ^ 52 - 1 := rfl
  have hexponent := toNat_unpackExponent x
  have hmantissa := toNat_unpackMantissa x
  have hbias : (Format.binary64.exponentBias : Int) +
      Format.binary64.mantissaBitsWithoutImplicit = 1075 := rfl
  have hnotInfinite : @unpackExponent Format.binary64 x.toBits.toBitVec ≠ -1#_ := by
    intro heq
    have hones : (@unpackExponent Format.binary64 x.toBits.toBitVec).toNat = 2047 :=
      congrArg BitVec.toNat heq
    omega
  have hsubnormal : @unpackExponent Format.binary64 x.toBits.toBitVec = 0#_ ↔
      x.magnitudeBits < 2 ^ 52 := by
    rw [← BitVec.toNat_inj, hexponent, BitVec.toNat_zero]
    omega
  have hzero : @unpackMantissa Format.binary64 x.toBits.toBitVec = 0#_ ↔
      x.magnitudeBits % 2 ^ 52 = 0 := by
    rw [← BitVec.toNat_inj, hmantissa, BitVec.toNat_zero]
  change UnpackedFloat.unpack Format.binary64 x.toBits.toBitVec = _
  unfold UnpackedFloat.unpack
  dsimp only
  rw [ofBitVec_unpackSign, hbias, hexponent, if_neg hnotInfinite]
  by_cases hsmall : x.magnitudeBits < 2 ^ 52
  · rw [if_pos (hsubnormal.2 hsmall)]
    rw [if_pos (by omega)] at hsignificand
    by_cases hnone : x.magnitudeBits = 0
    · rw [dif_pos (hzero.2 (by omega)), unpacked, dif_pos (by omega)]
    · rw [dif_neg (fun h => hnone (by have := hzero.1 h; omega))]
      exact finite_eq_unpacked _ (by omega) (by omega)
  · have hleading : (1#1 ++ @unpackMantissa Format.binary64 x.toBits.toBitVec).toNat =
        2 ^ 52 + x.magnitudeBits % 2 ^ 52 := by
      rw [toNat_append, hmantissa]
      rfl
    rw [if_neg (mt hsubnormal.1 hsmall)]
    refine finite_eq_unpacked _ ?_ (by omega)
    rw [hleading, hsignificand]
    split <;> omega

theorem fits (x : Binary64) : Fits x.shift x.significand := by
  refine ⟨x.significand_lt, ?_⟩
  unfold shift significand
  rw [pow2_eq, pow2_eq]
  split <;> omega

/-! ## Products and quotients -/

variable {m n p q : Nat}

theorem unpacked_zero (negative : Bool) (place : Nat) :
    unpacked negative place 0 = .zero (signOf negative) := rfl

theorem zero_mul_unpacked (sign : Sign) (b : Bool) :
    UnpackedFloat.mul Format.binary64 (.zero sign) (unpacked b q n) =
      .zero (sign * signOf b) := by
  unfold unpacked
  split <;> rfl

theorem unpacked_mul_zero (a : Bool) (sign : Sign) :
    UnpackedFloat.mul Format.binary64 (unpacked a p m) (.zero sign) =
      .zero (signOf a * sign) := by
  unfold unpacked
  split <;> rfl

theorem hasBits_mul (a b : Bool) (hm : Fits p m) (hn : Fits q n) :
    HasBits (UnpackedFloat.mul Format.binary64 (unpacked a p m) (unpacked b q n)) (a ^^ b)
      (nearestBits (m * 2 ^ p * (n * 2 ^ q)) (2 ^ 1074)) := by
  have hsign : signOf a * signOf b = signOf (a ^^ b) := by cases a <;> cases b <;> rfl
  by_cases hm0 : m = 0
  · subst hm0
    rw [unpacked_zero, zero_mul_unpacked, hsign, Nat.zero_mul, Nat.zero_mul,
      nearestBits_of_lt (Nat.two_pow_pos _)]
    exact hasBits_zero _
  by_cases hn0 : n = 0
  · subst hn0
    rw [unpacked_zero, unpacked_mul_zero, hsign, Nat.zero_mul, Nat.mul_zero,
      nearestBits_of_lt (Nat.two_pow_pos _)]
    exact hasBits_zero _
  · -- above the lowest place one factor has its leading bit, and so has the product
    have hprecise : (p : Int) - 1074 + (q - 1074) ≤ -1074 ∨ 2 ^ 52 ≤ m * n / 1 := by
      rw [Nat.div_one]
      rcases hm.normal with rfl | hbig
      · rcases hn.normal with rfl | hbig
        · exact .inl (by decide)
        · exact .inr (Nat.le_trans hbig (Nat.le_mul_of_pos_left n (Nat.pos_of_ne_zero hm0)))
      · exact .inr (Nat.le_trans hbig (Nat.le_mul_of_pos_right m (Nat.pos_of_ne_zero hn0)))
    have hround := hasBits_roundWithAccuracy (a ^^ b) (i := p + q) (j := 1074) Nat.one_pos
      (by omega) hprecise
    have hunits : m * n * 2 ^ (p + q) = m * 2 ^ p * (n * 2 ^ q) := by
      rw [Nat.pow_add]
      ring
    rw [hunits, Nat.one_mul, Nat.div_one, Nat.mod_one, ← hsign] at hround
    rw [unpacked_of_ne_zero hm0, unpacked_of_ne_zero hn0]
    exact hround

/-- A mantissa that is shifted far enough has a quotient with its leading bit. -/
theorem le_shifted_div {k : Nat} (hm : m ≠ 0) (hn : n ≠ 0) (hk : 53 + n.log2 ≤ m.log2 + k) :
    2 ^ 52 ≤ m * 2 ^ k / n := by
  rw [Nat.le_div_iff_mul_le (Nat.pos_of_ne_zero hn)]
  calc 2 ^ 52 * n
      ≤ 2 ^ 52 * 2 ^ (n.log2 + 1) := Nat.mul_le_mul_left _ (Nat.le_of_lt Nat.lt_log2_self)
    _ = 2 ^ (53 + n.log2) := by
      rw [← Nat.pow_add]
      exact congrArg (2 ^ ·) (by omega)
    _ ≤ 2 ^ (m.log2 + k) := Nat.pow_le_pow_right Nat.two_pos hk
    _ = 2 ^ m.log2 * 2 ^ k := Nat.pow_add _ _ _
    _ ≤ m * 2 ^ k := Nat.mul_le_mul_right _ (Nat.log2_self_le hm)

theorem hasBits_div (a b : Bool) (hn : n ≠ 0) :
    HasBits (UnpackedFloat.div Format.binary64 (unpacked a p m) (unpacked b q n)) (a ^^ b)
      (nearestBits (m * 2 ^ p * 2 ^ 1074) (n * 2 ^ q)) := by
  have hsign : signOf a / signOf b = signOf (a ^^ b) := by cases a <;> cases b <;> rfl
  have hpos := Nat.pos_of_ne_zero hn
  rw [unpacked_of_ne_zero hn]
  by_cases hm : m = 0
  · subst hm
    have hquotient : UnpackedFloat.div Format.binary64 (unpacked a p 0)
        (.finite (signOf b) n ((q : Int) - 1074) hpos) = .zero (signOf a / signOf b) := rfl
    rw [hquotient, hsign, Nat.zero_mul, Nat.zero_mul,
      nearestBits_of_lt (Nat.mul_pos hpos (Nat.two_pow_pos q))]
    exact hasBits_zero _
  · rw [unpacked_of_ne_zero hm]
    have hdifference : totalExponent m ((p : Int) - 1074) - totalExponent n ((q : Int) - 1074) =
        (m.log2 : Int) - n.log2 + p - q := by
      unfold totalExponent
      omega
    have htarget : Format.binary64.targetExponent ((m.log2 : Int) - n.log2 + p - q) =
        max ((m.log2 : Int) - n.log2 + p - q - 53) (-1074) := rfl
    unfold UnpackedFloat.div divCore
    dsimp only
    rw [hdifference, htarget, hsign]
    generalize hexponent : min ((p : Int) - 1074 - (q - 1074))
      (max ((m.log2 : Int) - n.log2 + p - q - 53) (-1074)) = exponent
    generalize hshift : ((p : Int) - 1074 - (q - 1074) - exponent).toNat = k
    have hprecise : exponent ≤ -1074 ∨ 2 ^ 52 ≤ m * 2 ^ k / n := by
      by_cases hlow : exponent ≤ -1074
      · exact .inl hlow
      · exact .inr (le_shifted_div hm hn (by omega))
    have hround := hasBits_roundWithAccuracy (a ^^ b) (i := p + 1074) (j := q + k) hpos
      (by omega) hprecise
    have hsame : nearestBits (m * 2 ^ k * 2 ^ (p + 1074)) (n * 2 ^ (q + k)) =
        nearestBits (m * 2 ^ p * 2 ^ 1074) (n * 2 ^ q) := by
      refine nearestBits_congr (by positivity) (by positivity) ?_
      rw [Nat.pow_add, Nat.pow_add]
      ring
    rw [hsame] at hround
    rw [Nat.shiftLeft_eq]
    exact hround

/-! ## Doubles -/

variable {x y : Binary64}

/-- **The product of two finite doubles** is the exact product, rounded once. -/
theorem mul_eq (hx : x.isFinite = true) (hy : y.isFinite = true) :
    (x * y : Float) =
      ofQuotient (x.isNegative ^^ y.isNegative) (x.magnitude * y.magnitude) (2 ^ 2148) := by
  have hbits := hasBits_mul x.isNegative y.isNegative x.fits y.fits
  rw [← unpack_eq hx, ← unpack_eq hy] at hbits
  have hsame : nearestBits (x.magnitude * y.magnitude * 2 ^ 1074) (2 ^ 2148) =
      nearestBits (x.magnitude * y.magnitude) (2 ^ 1074) := by
    refine nearestBits_congr (Nat.two_pow_pos _) (Nat.two_pow_pos _) ?_
    rw [Nat.mul_assoc, ← Nat.pow_add]
  rw [ofQuotient_eq, hsame]
  exact hbits.ofModel_pack

/-- **The quotient of two finite doubles** is the exact quotient, rounded once, if the divisor is
not zero. -/
theorem div_eq (hx : x.isFinite = true) (hy : y.isFinite = true) (hne : y.significand ≠ 0) :
    (x / y : Float) = ofQuotient (x.isNegative ^^ y.isNegative) x.magnitude y.magnitude := by
  have hbits := hasBits_div (p := x.shift) (m := x.significand) (q := y.shift)
    x.isNegative y.isNegative hne
  rw [← unpack_eq hx, ← unpack_eq hy] at hbits
  rw [ofQuotient_eq]
  exact hbits.ofModel_pack

end Binary64

end SweepCharts
