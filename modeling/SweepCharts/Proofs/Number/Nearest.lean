import SweepCharts.Proofs.Number.Bits

set_option autoImplicit false

/-! # The double nearest to a value

A quotient is rounded to a double at the place of its leading bit. The places of larger values are
not lower, and at one place rounding keeps the order; a value that a double has is a whole number at
its place, and nothing is rounded.

* `magnitude_ofQuotient`: the magnitude of a rounded quotient.
* `nearestMagnitude_mono`: rounding keeps the order.
* `ofQuotient_exact`: a value that a double has is not changed.
* `scaled_ofInt_mono`, `scaled_ofInt_neg_iff`: integers keep their order and their sign.
-/

namespace SweepCharts

/-! ## The nearest whole number -/

theorem roundHalfEven_cases (num den : Nat) :
    roundHalfEven num den = num / den ∨ roundHalfEven num den = num / den + 1 := by
  unfold roundHalfEven
  dsimp only
  split
  · exact .inl rfl
  · split
    · exact .inr rfl
    · omega

theorem roundHalfEven_mul (n : Nat) {den : Nat} (h : 0 < den) :
    roundHalfEven (n * den) den = n := by
  unfold roundHalfEven
  dsimp only
  rw [Nat.mul_mod_left, Nat.mul_div_cancel n h, if_pos h]

theorem roundHalfEven_mono (den : Nat) {m n : Nat} (h : m ≤ n) :
    roundHalfEven m den ≤ roundHalfEven n den := by
  have hm := roundHalfEven_cases m den
  have hn := roundHalfEven_cases n den
  rcases Nat.lt_or_eq_of_le (Nat.div_le_div_right (c := den) h) with hlt | heq
  · omega
  · -- the same whole part, so the order is that of the remainders
    have hm' := Nat.div_add_mod m den
    have hn' := Nat.div_add_mod n den
    rw [heq] at hm'
    have hmod : m % den ≤ n % den := by omega
    unfold roundHalfEven
    dsimp only
    rw [heq]
    by_cases hdown : 2 * (m % den) < den
    · rw [if_pos hdown]
      split
      · exact Nat.le_refl _
      · split <;> omega
    · have hnot : ¬ 2 * (n % den) < den := by omega
      rw [if_neg hdown, if_neg hnot]
      split
      · rw [if_pos (by omega)]
      · split <;> omega

namespace Binary64

/-! ## Rounding at a place -/

/-- Where the last bit of the significand of `units / den` stands. -/
def place (units den : Nat) : Nat := (units / den).log2 - 52

/-- The magnitude nearest to `units / den`, if magnitudes had no end. -/
def nearestMagnitude (units den : Nat) : Nat :=
  roundHalfEven units (den * 2 ^ place units den) * 2 ^ place units den

/-- The magnitude bits nearest to `units / den`, if magnitude bits had no end. -/
def nearestBits (units den : Nat) : Nat :=
  place units den * 2 ^ 52 + roundHalfEven units (den * 2 ^ place units den)

theorem ofQuotient_eq (negative : Bool) (num den : Nat) :
    ofQuotient negative num den = ofMagnitudeBits negative (nearestBits (num * 2 ^ 1074) den) := by
  unfold ofQuotient nearestBits place
  simp only [pow2_eq]

variable {units den : Nat}

/-- Less than half a unit is nearest to zero. -/
theorem nearestBits_of_lt (h : 2 * units < den) : nearestBits units den = 0 := by
  have hquotient : units / den = 0 := Nat.div_eq_of_lt (by omega)
  have hplace : place units den = 0 := by rw [place, hquotient]; rfl
  have hround : roundHalfEven units den = 0 := by
    unfold roundHalfEven
    dsimp only
    rw [Nat.mod_eq_of_lt (by omega), if_pos h, hquotient]
  rw [nearestBits, hplace, Nat.pow_zero, Nat.mul_one, hround, Nat.zero_mul]

theorem quotient_lt (units den : Nat) : units / (den * 2 ^ place units den) < 2 ^ 53 := by
  rw [← Nat.div_div_eq_div_mul, Nat.div_lt_iff_lt_mul (Nat.two_pow_pos _), ← Nat.pow_add]
  refine Nat.lt_of_lt_of_le Nat.lt_log2_self (Nat.pow_le_pow_right Nat.two_pos ?_)
  unfold place
  omega

/-- Above the lowest place a significand has its leading bit. -/
theorem le_quotient (h : place units den ≠ 0) :
    2 ^ 52 ≤ units / (den * 2 ^ place units den) := by
  unfold place at h ⊢
  have hne : units / den ≠ 0 := by
    intro hzero
    rw [hzero] at h
    exact h rfl
  rw [← Nat.div_div_eq_div_mul, Nat.le_div_iff_mul_le (Nat.two_pow_pos _), ← Nat.pow_add]
  have hlog : 52 + ((units / den).log2 - 52) = (units / den).log2 := by omega
  rw [hlog]
  exact Nat.log2_self_le hne

/-- What rounding at a place gives is a significand, or carries. -/
theorem significand_bounds (units den : Nat) :
    roundHalfEven units (den * 2 ^ place units den) ≤ 2 ^ 53 ∧
      (place units den = 0 ∨ 2 ^ 52 ≤ roundHalfEven units (den * 2 ^ place units den)) := by
  have hlt := quotient_lt units den
  have hcases := roundHalfEven_cases units (den * 2 ^ place units den)
  refine ⟨by omega, ?_⟩
  by_cases hplace : place units den = 0
  · exact .inl hplace
  · have hle := le_quotient hplace
    exact .inr (by omega)

/-- **The magnitude of a rounded quotient.** -/
theorem magnitude_ofQuotient (negative : Bool) (num den : Nat) :
    (ofQuotient negative num den).magnitude =
      min (nearestMagnitude (num * 2 ^ 1074) den) (magnitudeOf infinityBits) := by
  obtain ⟨hle, hnormal⟩ := significand_bounds (num * 2 ^ 1074) den
  unfold nearestMagnitude ofQuotient
  rw [← magnitudeOf_add hle hnormal]
  simp only [pow2_eq]
  exact magnitude_ofMagnitudeBits negative _

/-! ## Order -/

theorem log2_mono {m n : Nat} (h : m ≤ n) : m.log2 ≤ n.log2 := by
  rw [Nat.log2_eq_log_two, Nat.log2_eq_log_two]
  exact Nat.log_mono_right h

/-- **Rounding keeps the order.** -/
theorem nearestMagnitude_mono {more : Nat} (h : units ≤ more) :
    nearestMagnitude units den ≤ nearestMagnitude more den := by
  have hplace : place units den ≤ place more den :=
    Nat.sub_le_sub_right (log2_mono (Nat.div_le_div_right h)) 52
  unfold nearestMagnitude
  rcases Nat.lt_or_eq_of_le hplace with hlt | heq
  · -- a carry at the lower place does not reach the leading bit at the higher one
    have hle := (significand_bounds units den).1
    have hnormal := (significand_bounds more den).2.resolve_left (by omega)
    calc roundHalfEven units (den * 2 ^ place units den) * 2 ^ place units den
        ≤ 2 ^ 53 * 2 ^ place units den := Nat.mul_le_mul_right _ hle
      _ = 2 ^ 52 * 2 ^ (place units den + 1) := by
        rw [← Nat.pow_add, ← Nat.pow_add]
        exact congrArg (2 ^ ·) (by omega)
      _ ≤ 2 ^ 52 * 2 ^ place more den :=
        Nat.mul_le_mul_left _ (Nat.pow_le_pow_right Nat.two_pos hlt)
      _ ≤ roundHalfEven more (den * 2 ^ place more den) * 2 ^ place more den :=
        Nat.mul_le_mul_right _ hnormal
  · rw [heq]
    exact Nat.mul_le_mul_right _ (roundHalfEven_mono _ h)

/-! ## Values that doubles have -/

/-- A significand at its place is not rounded. -/
theorem nearestMagnitude_of_eq {significand shift : Nat} (hden : 0 < den)
    (hlt : significand < 2 ^ 53) (h : units = den * (significand * 2 ^ shift)) :
    nearestMagnitude units den = significand * 2 ^ shift := by
  have hquotient : units / den = significand * 2 ^ shift := by
    rw [h, Nat.mul_div_cancel_left _ hden]
  have hplace : place units den ≤ shift := by
    unfold place
    rw [hquotient]
    by_cases hzero : significand * 2 ^ shift = 0
    · rw [hzero]
      exact Nat.zero_le _
    · have hlog : (significand * 2 ^ shift).log2 < 53 + shift := by
        rw [Nat.log2_lt hzero, Nat.pow_add]
        exact Nat.mul_lt_mul_of_pos_right hlt (Nat.two_pow_pos _)
      omega
  unfold nearestMagnitude
  generalize place units den = low at hplace
  obtain ⟨rest, rfl⟩ := Nat.exists_eq_add_of_le hplace
  have hunits : units = significand * 2 ^ rest * (den * 2 ^ low) := by
    rw [h, Nat.pow_add]
    ring
  rw [hunits, roundHalfEven_mul _ (Nat.mul_pos hden (Nat.two_pow_pos _)), Nat.pow_add]
  ring

theorem significand_lt (x : Binary64) : x.significand < 2 ^ 53 := by
  unfold significand
  rw [pow2_eq, pow2_eq]
  split <;> omega

/-- **A value that a finite double has** is not changed. -/
theorem ofQuotient_exact {x : Binary64} (negative : Bool) {num den : Nat}
    (hx : x.isFinite = true) (hden : 0 < den) (h : num * 2 ^ 1074 = den * x.magnitude) :
    (ofQuotient negative num den).magnitude = x.magnitude ∧
      (ofQuotient negative num den).isFinite = true := by
  have hlt := isFinite_iff_magnitude_lt.1 hx
  have hmagnitude : (ofQuotient negative num den).magnitude = x.magnitude := by
    rw [magnitude_ofQuotient, nearestMagnitude_of_eq hden x.significand_lt h]
    exact Nat.min_eq_left (Nat.le_of_lt hlt)
  refine ⟨hmagnitude, isFinite_iff_magnitude_lt.2 ?_⟩
  rw [hmagnitude]
  exact hlt

/-! ## Integers -/

@[simp] theorem isNegative_ofQuotient (negative : Bool) (num den : Nat) :
    (ofQuotient negative num den).isNegative = negative :=
  isNegative_ofMagnitudeBits negative _

@[simp] theorem isNaN_ofQuotient (negative : Bool) (num den : Nat) :
    (ofQuotient negative num den).isNaN = false :=
  isNaN_ofMagnitudeBits negative _

theorem isNaN_ofInt (n : Int) : (ofInt n).isNaN = false := isNaN_ofQuotient _ _ _

theorem scaled_ofInt (n : Int) :
    (ofInt n).scaled = if n < 0 then -((ofInt n).magnitude : Int) else (ofInt n).magnitude := by
  simp [scaled, ofInt]

theorem magnitude_ofInt_mono {m n : Int} (h : m.natAbs ≤ n.natAbs) :
    (ofInt m).magnitude ≤ (ofInt n).magnitude := by
  unfold ofInt
  rw [magnitude_ofQuotient, magnitude_ofQuotient]
  exact min_le_min_right _ (nearestMagnitude_mono (Nat.mul_le_mul_right _ h))

/-- **Integers keep their order.** -/
theorem scaled_ofInt_mono {m n : Int} (h : m ≤ n) : (ofInt m).scaled ≤ (ofInt n).scaled := by
  rw [scaled_ofInt, scaled_ofInt]
  by_cases hm : m < 0
  · by_cases hn : n < 0
    · have hle := magnitude_ofInt_mono (m := n) (n := m) (by omega)
      rw [if_pos hm, if_pos hn]
      omega
    · rw [if_pos hm, if_neg hn]
      omega
  · have hle := magnitude_ofInt_mono (m := m) (n := n) (by omega)
    rw [if_neg hm, if_neg (by omega)]
    omega

theorem magnitude_ofInt_pos {n : Int} (h : n ≠ 0) : 0 < (ofInt n).magnitude := by
  have hone : nearestMagnitude (1 * 2 ^ 1074) 1 = 1 * 2 ^ 1074 :=
    nearestMagnitude_of_eq Nat.one_pos (by decide) (Nat.one_mul _).symm
  have hinfinity : 0 < magnitudeOf infinityBits :=
    Nat.lt_of_le_of_lt (Nat.zero_le _) (strictMono_magnitudeOf (by decide : 0 < infinityBits))
  have hle := magnitude_ofInt_mono (m := 1) (n := n) (by omega)
  have hmagnitude : (ofInt 1).magnitude =
      min (nearestMagnitude (1 * 2 ^ 1074) 1) (magnitudeOf infinityBits) :=
    magnitude_ofQuotient _ 1 1
  rw [hone, Nat.one_mul, ← pow2_eq] at hmagnitude
  rw [hmagnitude] at hle
  exact Nat.lt_of_lt_of_le (Nat.lt_min.2 ⟨pow2_pos _, hinfinity⟩) hle

/-- Integers keep their sign. -/
theorem scaled_ofInt_neg_iff {n : Int} : (ofInt n).scaled < 0 ↔ n < 0 := by
  rw [scaled_ofInt]
  constructor
  · intro h
    by_contra hn
    rw [if_neg hn] at h
    omega
  · intro hn
    have hpos := magnitude_ofInt_pos (n := n) (by omega)
    rw [if_pos hn]
    omega

end Binary64

end SweepCharts
