import SweepCharts.Proofs.Number.Nearest

set_option autoImplicit false

/-! # Correct rounding

A value is rounded correctly if no finite double is nearer to it, and if of two that are equally
near the even one is taken; from half a unit above the largest double on, a value is infinite. A
quotient is rounded on the grid of its place. Larger magnitudes are all on that grid. A smaller one
that is not lies below the least significand with its leading bit, which is on the grid and nearer.

* `roundHalfEven_nearest`, `roundHalfEven_tie`: the nearest whole number.
* `gap_nearestMagnitude_le`, `nearestBits_even`: the nearest magnitude.
* `isFinite_ofQuotient`: from where on a quotient is infinite.
* `RoundsTo`: correct rounding of a rational number; `RoundsTo.unique`: one double is right.
* `roundsTo_ofQuotient`: a quotient is rounded correctly.
-/

namespace SweepCharts

/-! ## The nearest whole number -/

section Nearest

variable (num : Nat) {den : Nat} (c : Nat)

/-- A quotient as its whole part and a rest, and which neighbour it is rounded to. -/
theorem exists_rest (hden : 0 < den) : ∃ whole rest, num = whole * den + rest ∧ rest < den ∧
    num / den = whole ∧ (2 * rest < den ∧ roundHalfEven num den = whole ∨
      den < 2 * rest ∧ roundHalfEven num den = whole + 1 ∨
      2 * rest = den ∧ roundHalfEven num den = whole + whole % 2) := by
  refine ⟨num / den, num % den, (Nat.div_add_mod' num den).symm, Nat.mod_lt num hden, rfl, ?_⟩
  unfold roundHalfEven
  dsimp only
  split
  · exact .inl ⟨‹_›, rfl⟩
  · split
    · exact .inr (.inl ⟨‹_›, rfl⟩)
    · exact .inr (.inr ⟨by omega, rfl⟩)

/-- The multiples at a whole number, at the next one, below and above. -/
theorem mul_den_cases (whole den : Nat) : c = whole ∨ c = whole + 1 ∨
    c < whole ∧ c * den + den ≤ whole * den ∨
      whole + 1 < c ∧ whole * den + 2 * den ≤ c * den := by
  by_cases hbelow : c + 1 ≤ whole
  · have h := Nat.mul_le_mul_right den hbelow
    rw [Nat.add_one_mul] at h
    omega
  · by_cases habove : whole + 2 ≤ c
    · have h := Nat.mul_le_mul_right den habove
      rw [Nat.add_mul] at h
      omega
    · omega

/-- **No multiple is nearer** than the rounded one. -/
theorem roundHalfEven_nearest (hden : 0 < den) :
    ((roundHalfEven num den * den : Nat) - num : Int).natAbs ≤
      ((c * den : Nat) - num : Int).natAbs := by
  obtain ⟨whole, rest, rfl, hlt, -, hround⟩ := exists_rest num hden
  have hsucc := Nat.add_one_mul whole den
  rcases hround with ⟨hrest, hr⟩ | ⟨hrest, hr⟩ | ⟨hrest, hr⟩ <;> rw [hr]
  · rcases mul_den_cases c whole den with rfl | rfl | hc | hc <;> omega
  · rcases mul_den_cases c whole den with rfl | rfl | hc | hc <;> omega
  · rcases Nat.mod_two_eq_zero_or_one whole with hbit | hbit <;> rw [hbit]
    · rw [Nat.add_zero]
      rcases mul_den_cases c whole den with rfl | rfl | hc | hc <;> omega
    · rcases mul_den_cases c whole den with rfl | rfl | hc | hc <;> omega

/-- Of two multiples that are equally near, the rounded one is even. -/
theorem roundHalfEven_tie (hden : 0 < den) (hne : c ≠ roundHalfEven num den)
    (h : ((c * den : Nat) - num : Int).natAbs =
      ((roundHalfEven num den * den : Nat) - num : Int).natAbs) :
    roundHalfEven num den % 2 = 0 := by
  obtain ⟨whole, rest, rfl, hlt, -, hround⟩ := exists_rest num hden
  have hsucc := Nat.add_one_mul whole den
  rcases hround with ⟨hrest, hr⟩ | ⟨hrest, hr⟩ | ⟨hrest, hr⟩ <;> rw [hr] at h hne ⊢
  · rcases mul_den_cases c whole den with rfl | rfl | hc | hc <;> omega
  · rcases mul_den_cases c whole den with rfl | rfl | hc | hc <;> omega
  · omega

/-- What is rounded to at most an odd number. -/
theorem roundHalfEven_le_iff (hden : 0 < den) (hodd : c % 2 = 1) :
    roundHalfEven num den ≤ c ↔ 2 * num < (2 * c + 1) * den := by
  obtain ⟨whole, rest, rfl, hlt, -, hround⟩ := exists_rest num hden
  have hexpand : (2 * c + 1) * den = 2 * (c * den) + den := by ring
  have hsucc := Nat.add_one_mul whole den
  rw [hexpand]
  rcases hround with ⟨hrest, hr⟩ | ⟨hrest, hr⟩ | ⟨hrest, hr⟩ <;> rw [hr]
  · rcases mul_den_cases c whole den with rfl | rfl | hc | hc <;> omega
  · rcases mul_den_cases c whole den with rfl | rfl | hc | hc <;> omega
  · rcases mul_den_cases c whole den with rfl | rfl | hc | hc <;> omega

end Nearest

namespace Binary64

/-! ## The nearest magnitude -/

/-- How far a magnitude is from `units / den`, in units of `1 / den`. -/
def gap (units den magnitude : Nat) : Nat := ((magnitude * den : Nat) - units : Int).natAbs

variable {units den : Nat} (bits : Nat)

/-- A magnitude is on the grid at the place of a quotient, or below the least significand there that
has its leading bit. -/
theorem magnitudeOf_cases (units den : Nat) :
    (∃ c, magnitudeOf bits = c * 2 ^ place units den) ∨
      place units den ≠ 0 ∧ magnitudeOf bits < 2 ^ 52 * 2 ^ place units den := by
  obtain ⟨low, significand, rfl, hlt, hnormal⟩ := exists_place bits
  rw [magnitudeOf_add (Nat.le_of_lt hlt) hnormal]
  rcases Nat.lt_or_ge low (place units den) with h | h
  · refine .inr ⟨by omega, ?_⟩
    calc significand * 2 ^ low
        < 2 ^ 53 * 2 ^ low := Nat.mul_lt_mul_of_pos_right hlt (Nat.two_pow_pos low)
      _ = 2 ^ 52 * 2 ^ (low + 1) := by rw [Nat.pow_succ]; omega
      _ ≤ 2 ^ 52 * 2 ^ place units den :=
        Nat.mul_le_mul_left _ (Nat.pow_le_pow_right Nat.two_pos h)
  · obtain ⟨rest, hrest⟩ := Nat.exists_eq_add_of_le h
    refine .inl ⟨significand * 2 ^ rest, ?_⟩
    rw [hrest, Nat.add_comm, Nat.pow_add, Nat.mul_assoc]

theorem gap_grid (units den c p : Nat) :
    gap units den (c * 2 ^ p) = ((c * (den * 2 ^ p) : Nat) - units : Int).natAbs := by
  unfold gap
  rw [Nat.mul_assoc, Nat.mul_comm (2 ^ p)]

theorem gap_nearestMagnitude_le_grid (hden : 0 < den) (c : Nat) :
    gap units den (nearestMagnitude units den) ≤ gap units den (c * 2 ^ place units den) := by
  unfold nearestMagnitude
  rw [gap_grid, gap_grid]
  exact roundHalfEven_nearest units c (Nat.mul_pos hden (Nat.two_pow_pos _))

/-- A magnitude off the grid is farther away than the rounded one. -/
theorem gap_nearestMagnitude_lt (hden : 0 < den) {magnitude : Nat} (hplace : place units den ≠ 0)
    (h : magnitude < 2 ^ 52 * 2 ^ place units den) :
    gap units den (nearestMagnitude units den) < gap units den magnitude := by
  have hle := le_quotient hplace
  rw [Nat.le_div_iff_mul_le (Nat.mul_pos hden (Nat.two_pow_pos _)), Nat.mul_left_comm,
    Nat.mul_comm] at hle
  have hlt := Nat.mul_lt_mul_of_pos_right h hden
  refine Nat.lt_of_le_of_lt (gap_nearestMagnitude_le_grid hden (2 ^ 52)) ?_
  unfold gap
  omega

/-- **No magnitude is nearer** than the rounded one. -/
theorem gap_nearestMagnitude_le (hden : 0 < den) :
    gap units den (nearestMagnitude units den) ≤ gap units den (magnitudeOf bits) := by
  rcases magnitudeOf_cases bits units den with ⟨c, hc⟩ | ⟨hplace, hlt⟩
  · rw [hc]
    exact gap_nearestMagnitude_le_grid hden c
  · exact Nat.le_of_lt (gap_nearestMagnitude_lt hden hplace hlt)

/-- Of two magnitudes that are equally near, the rounded one is even. -/
theorem nearestBits_even (hden : 0 < den) (hne : magnitudeOf bits ≠ nearestMagnitude units den)
    (h : gap units den (magnitudeOf bits) = gap units den (nearestMagnitude units den)) :
    nearestBits units den % 2 = 0 := by
  rcases magnitudeOf_cases bits units den with ⟨c, hc⟩ | ⟨hplace, hlt⟩
  · have hpos : 0 < den * 2 ^ place units den := Nat.mul_pos hden (Nat.two_pow_pos _)
    have hround : c ≠ roundHalfEven units (den * 2 ^ place units den) := by
      rintro rfl
      exact hne hc
    rw [hc, nearestMagnitude, gap_grid, gap_grid] at h
    have heven := roundHalfEven_tie units c hpos hround h
    unfold nearestBits
    omega
  · exact absurd h (gap_nearestMagnitude_lt hden hplace hlt).ne'

/-! ## Infinite quotients -/

/-- The values from here on are infinite, in units of `2 ^ -1074`: half a unit above the largest
double. -/
def overflow : Nat := (2 ^ 54 - 1) * 2 ^ 2044

theorem nearestBits_lt_iff (hden : 0 < den) :
    nearestBits units den < infinityBits ↔ units < den * overflow := by
  have hpos : 0 < den * 2 ^ place units den := Nat.mul_pos hden (Nat.two_pow_pos _)
  have hinfinity : infinityBits = 2047 * 2 ^ 52 := rfl
  obtain ⟨hle, hnormal⟩ := significand_bounds units den
  have hup := quotient_lt units den
  have hdown : place units den ≠ 0 → 2 ^ 52 ≤ units / (den * 2 ^ place units den) := le_quotient
  rw [Nat.div_lt_iff_lt_mul hpos] at hup
  rw [Nat.le_div_iff_mul_le hpos] at hdown
  unfold nearestBits overflow
  rw [hinfinity]
  generalize place units den = p at *
  rcases Nat.lt_trichotomy p 2045 with h | rfl | h
  · have hpower : 2 ^ p ≤ 2 ^ 2044 := Nat.pow_le_pow_right Nat.two_pos (by omega)
    have hlt : units < den * ((2 ^ 54 - 1) * 2 ^ 2044) := calc
      units < 2 ^ 53 * (den * 2 ^ p) := hup
      _ ≤ 2 ^ 53 * (den * 2 ^ 2044) := Nat.mul_le_mul_left _ (Nat.mul_le_mul_left _ hpower)
      _ ≤ (2 ^ 54 - 1) * (den * 2 ^ 2044) := Nat.mul_le_mul_right _ (by decide)
      _ = den * ((2 ^ 54 - 1) * 2 ^ 2044) := Nat.mul_left_comm _ _ _
    exact iff_of_true (by omega) hlt
  · -- at the last place of finite doubles, all but a carry are finite
    have hcarry : 2045 * 2 ^ 52 + roundHalfEven units (den * 2 ^ 2045) < 2047 * 2 ^ 52 ↔
        roundHalfEven units (den * 2 ^ 2045) ≤ 2 ^ 53 - 1 := by omega
    have hscale : (2 * (2 ^ 53 - 1) + 1) * (den * 2 ^ 2045) =
        2 * (den * ((2 ^ 54 - 1) * 2 ^ 2044)) := by
      rw [Nat.pow_succ 2 2044]
      generalize 2 ^ 2044 = unit
      ring
    rw [hcarry, roundHalfEven_le_iff units _ hpos (by decide), hscale]
    omega
  · have hpower : 2 ^ 2046 ≤ 2 ^ p := Nat.pow_le_pow_right Nat.two_pos h
    have hge : den * ((2 ^ 54 - 1) * 2 ^ 2044) ≤ units := calc
      den * ((2 ^ 54 - 1) * 2 ^ 2044)
        ≤ den * (2 ^ 54 * 2 ^ 2044) :=
          Nat.mul_le_mul_left _ (Nat.mul_le_mul_right _ (Nat.sub_le _ _))
      _ = 2 ^ 52 * (den * 2 ^ 2046) := by
        rw [Nat.pow_add 2 2 2044]
        generalize 2 ^ 2044 = unit
        ring
      _ ≤ 2 ^ 52 * (den * 2 ^ p) := Nat.mul_le_mul_left _ (Nat.mul_le_mul_left _ hpower)
      _ ≤ units := hdown (by omega)
    exact iff_of_false (by omega) (Nat.not_lt.2 hge)

/-- **Where quotients become infinite.** -/
theorem isFinite_ofQuotient (negative : Bool) {num : Nat} (hden : 0 < den) :
    (ofQuotient negative num den).isFinite = true ↔ num * 2 ^ 1074 < den * overflow := by
  rw [ofQuotient_eq, isFinite_ofMagnitudeBits, nearestBits_lt_iff hden]

/-- Integers of 64 bits are finite. -/
theorem isFinite_ofInt {n : Int} (h : n.natAbs < 2 ^ 64) : (ofInt n).isFinite = true := by
  unfold ofInt
  rw [isFinite_ofQuotient _ Nat.one_pos, Nat.one_mul]
  calc n.natAbs * 2 ^ 1074
      < 2 ^ 64 * 2 ^ 1074 := Nat.mul_lt_mul_of_pos_right h (Nat.two_pow_pos _)
    _ = 2 ^ (64 + 1074) := (Nat.pow_add _ _ _).symm
    _ ≤ 2 ^ 2044 := Nat.pow_le_pow_right Nat.two_pos (by decide)
    _ ≤ overflow := by
      unfold overflow
      generalize (2 : Nat) ^ 2044 = large
      omega

/-! ## Correct rounding of a value -/

/-- The absolute value of a double. -/
def absValue (x : Binary64) : ℚ := x.magnitude / 2 ^ 1074

/-- A finite double that is nearest to a value, and even if another one is equally near. -/
structure NearestTo (x : Binary64) (value : ℚ) : Prop where
  isFinite : x.isFinite = true
  nearest : ∀ y : Binary64, y.isFinite = true → |x.absValue - value| ≤ |y.absValue - value|
  even : ∀ y : Binary64, y.isFinite = true → y.absValue ≠ x.absValue →
    |y.absValue - value| = |x.absValue - value| → x.magnitudeBits % 2 = 0

/-- **Correct rounding** of a value with a sign: to the nearest double, and to an infinity from half
a unit above the largest double on. -/
structure RoundsTo (negative : Bool) (value : ℚ) (x : Binary64) : Prop where
  sign : x.isNegative = negative
  nearest : value < 2 ^ 1024 - 2 ^ 970 → x.NearestTo value
  infinite : 2 ^ 1024 - 2 ^ 970 ≤ value → x.magnitudeBits = infinityBits

theorem absValue_sub {num : Nat} (hden : 0 < den) (x : Binary64) :
    |x.absValue - (num : ℚ) / den| =
      (gap (num * 2 ^ 1074) den x.magnitude : ℚ) / (den * 2 ^ 1074) := by
  have hpos : (0 : ℚ) < den * 2 ^ 1074 := by positivity
  have hdifference : x.absValue - (num : ℚ) / den =
      (((x.magnitude * den : Nat) - (num * 2 ^ 1074 : Nat) : Int) : ℚ) / (den * 2 ^ 1074) := by
    unfold absValue
    push_cast
    field_simp
  unfold gap
  rw [hdifference, abs_div, abs_of_pos hpos, Nat.cast_natAbs, Int.cast_abs]

theorem absValue_inj {x y : Binary64} : x.absValue = y.absValue ↔ x.magnitude = y.magnitude := by
  unfold absValue
  rw [div_left_inj' (by positivity), Nat.cast_inj]

theorem lt_overflow_iff {num : Nat} (hden : 0 < den) :
    (num : ℚ) / den < 2 ^ 1024 - 2 ^ 970 ↔ num * 2 ^ 1074 < den * overflow := by
  have hbound : ((2 : ℚ) ^ 1024 - 2 ^ 970) * 2 ^ 1074 = (overflow : ℚ) := by
    unfold overflow
    push_cast
    have h1 : (2 : ℚ) ^ 1024 = 2 ^ 54 * 2 ^ 970 := by rw [← pow_add]
    have h2 : (2 : ℚ) ^ 2044 = 2 ^ 970 * 2 ^ 1074 := by rw [← pow_add]
    rw [h1, h2]
    generalize (2 : ℚ) ^ 970 = a
    generalize (2 : ℚ) ^ 1074 = b
    ring
  have hpos : (0 : ℚ) < den := Nat.cast_pos.2 hden
  rw [div_lt_iff₀ hpos, ← mul_lt_mul_iff_left₀ (by positivity : (0 : ℚ) < 2 ^ 1074),
    mul_right_comm, hbound, mul_comm (overflow : ℚ)]
  norm_cast

/-- **A quotient is rounded correctly.** -/
theorem roundsTo_ofQuotient (negative : Bool) (num : Nat) (hden : 0 < den) :
    RoundsTo negative ((num : ℚ) / den) (ofQuotient negative num den) := by
  have hpos : (0 : ℚ) < den * 2 ^ 1074 := by positivity
  have hbits : (ofQuotient negative num den).magnitudeBits =
      min (nearestBits (num * 2 ^ 1074) den) infinityBits := by
    rw [ofQuotient_eq, magnitudeBits_ofMagnitudeBits]
  have hthreshold : nearestBits (num * 2 ^ 1074) den < infinityBits ↔
      num * 2 ^ 1074 < den * overflow := nearestBits_lt_iff hden
  refine ⟨isNegative_ofQuotient negative num den, fun hlt => ?_, fun hle => ?_⟩
  · have hfinite := (isFinite_ofQuotient negative hden).2 ((lt_overflow_iff hden).1 hlt)
    have hmagnitude : (ofQuotient negative num den).magnitude =
        nearestMagnitude (num * 2 ^ 1074) den := by
      have hbelow := isFinite_iff_magnitude_lt.1 hfinite
      rw [magnitude_ofQuotient] at hbelow ⊢
      omega
    refine ⟨hfinite, fun y _ => ?_, fun y _ hne heq => ?_⟩
    · rw [absValue_sub hden, absValue_sub hden, div_le_div_iff_of_pos_right hpos, Nat.cast_le,
        hmagnitude]
      exact gap_nearestMagnitude_le _ hden
    · rw [absValue_sub hden, absValue_sub hden, div_left_inj' hpos.ne', Nat.cast_inj,
        hmagnitude] at heq
      rw [Ne, absValue_inj, hmagnitude] at hne
      rw [hbits, Nat.min_eq_left (Nat.le_of_lt (hthreshold.2 ((lt_overflow_iff hden).1 hlt)))]
      exact nearestBits_even _ hden hne heq
  · rw [hbits]
    refine Nat.min_eq_right (Nat.not_lt.1 fun hlt => ?_)
    exact absurd ((lt_overflow_iff hden).2 (hthreshold.1 hlt)) (not_lt.2 hle)

theorem absValue_lt_iff {x y : Binary64} :
    x.absValue < y.absValue ↔ x.magnitudeBits < y.magnitudeBits := by
  unfold absValue
  rw [div_lt_div_iff_of_pos_right (by positivity), Nat.cast_lt, magnitude_eq, magnitude_eq,
    strictMono_magnitudeOf.lt_iff_lt]

/-- Two doubles that are both nearest have one magnitude: between two even ones there is another
double, and it is nearer. -/
theorem NearestTo.not_lt {value : ℚ} {x y : Binary64} (hx : x.NearestTo value)
    (hy : y.NearestTo value) : ¬ x.magnitudeBits < y.magnitudeBits := by
  intro hlt
  have hequal : |x.absValue - value| = |y.absValue - value| :=
    le_antisymm (hx.nearest y hy.isFinite) (hy.nearest x hx.isFinite)
  have hbelow := absValue_lt_iff.2 hlt
  have hxeven := hx.even y hy.isFinite hbelow.ne' hequal.symm
  have hyeven := hy.even x hx.isFinite hbelow.ne hequal
  have hfinite : y.magnitudeBits < infinityBits := of_decide_eq_true hy.isFinite
  let between := ofMagnitudeBits false (x.magnitudeBits + 1)
  have hbits : between.magnitudeBits = x.magnitudeBits + 1 := by
    rw [magnitudeBits_ofMagnitudeBits]
    omega
  have hleft : x.absValue < between.absValue := absValue_lt_iff.2 (by omega)
  have hright : between.absValue < y.absValue := absValue_lt_iff.2 (by omega)
  have hle := hx.nearest between ((isFinite_ofMagnitudeBits _ _).2 (by omega))
  rcases abs_cases (x.absValue - value) with h | h <;>
    rcases abs_cases (y.absValue - value) with h' | h' <;>
      rcases abs_cases (between.absValue - value) with h'' | h'' <;> linarith

/-- **One double is right.** -/
theorem RoundsTo.unique {negative : Bool} {value : ℚ} {x y : Binary64}
    (hx : RoundsTo negative value x) (hy : RoundsTo negative value y) : x = y := by
  refine ext_magnitudeBits (hx.sign.trans hy.sign.symm) ?_
  rcases lt_or_ge value (2 ^ 1024 - 2 ^ 970) with h | h
  · have hxy := (hx.nearest h).not_lt (hy.nearest h)
    have hyx := (hy.nearest h).not_lt (hx.nearest h)
    omega
  · rw [hx.infinite h, hy.infinite h]

end Binary64

end SweepCharts
