import SweepCharts.Proofs.Json.Numeral
import SweepCharts.Proofs.Number.Nearest

set_option autoImplicit false

/-! # Integers as decimals

An integer can be written as it is or with `.0` after it. The first text is read as the integer, the
second one as a double: the digits with a zero more, divided by ten. If a double has the value of
the integer, nothing is rounded.

* `readInteger?_toString`: an integer is read back.
* `Decimal.read?_pointZero`, `readInteger?_pointZero`: with `.0` it is a decimal and no integer.
* `Decimal.hasValue_toBinary64`: the double that is read has the value of the integer.
-/

namespace SweepCharts

namespace Binary64

/-! ## Doubles with the value of an integer -/

/-- A finite double with the value of an integer. -/
def HasValue (x : Binary64) (n : Int) : Prop := x.isFinite = true ∧ x.scaled = n * pow2 1074

instance (x : Binary64) (n : Int) : Decidable (x.HasValue n) := inferInstanceAs (Decidable (_ ∧ _))

variable {x : Binary64} {n : Int}

theorem toInt?_eq_some : x.toInt? = some n ↔ x.HasValue n := by
  have hpos : (pow2 1074 : Int) ≠ 0 := Int.natCast_ne_zero.2 (pow2_pos 1074).ne'
  unfold toInt? HasValue
  rw [Option.ite_none_right_eq_some, Bool.and_eq_true, decide_eq_true_eq, Option.some.injEq]
  constructor
  · rintro ⟨⟨hfinite, hmod⟩, rfl⟩
    exact ⟨hfinite, (Int.ediv_mul_cancel (Int.dvd_of_emod_eq_zero hmod)).symm⟩
  · rintro ⟨hfinite, hscaled⟩
    rw [hscaled]
    exact ⟨⟨hfinite, Int.mul_emod_left _ _⟩, Int.mul_ediv_cancel _ hpos⟩

/-- A double has one value. -/
theorem HasValue.eq {m : Int} (hm : x.HasValue m) (hn : x.HasValue n) : m = n := by
  rw [← toInt?_eq_some] at hm hn
  exact Option.some.inj (hm.symm.trans hn)

theorem natAbs_scaled (x : Binary64) : x.scaled.natAbs = x.magnitude := by
  unfold scaled
  split
  · exact Int.natAbs_neg _
  · rfl

theorem HasValue.magnitude (h : x.HasValue n) : x.magnitude = n.natAbs * pow2 1074 := by
  rw [← natAbs_scaled, h.2, Int.natAbs_mul, Int.natAbs_natCast]

theorem hasValue_of_magnitude (hfinite : x.isFinite = true) (hsign : x.isNegative = decide (n < 0))
    (h : x.magnitude = n.natAbs * pow2 1074) : x.HasValue n := by
  refine ⟨hfinite, ?_⟩
  unfold scaled
  rw [hsign, h, Int.natCast_mul]
  simp only [decide_eq_true_eq]
  split
  · rw [Int.ofNat_natAbs_of_nonpos (by omega), Int.neg_mul, Int.neg_neg]
  · rw [Int.natAbs_of_nonneg (by omega)]

end Binary64

/-! ## The texts of an integer -/

variable (n : Int)

theorem readSign_toString :
    readSign (toString n).toList = (decide (n < 0), Nat.toDigits 10 n.natAbs) := by
  rw [toList_toString_int]
  split
  · rename_i hneg
    rw [decide_eq_true hneg]
    rfl
  · rename_i hpos
    have hdigit := forall_toDigits (P := fun c => c.isDigit = true) (fun _ h => h) n.natAbs
    rw [decide_eq_false hpos]
    unfold readSign
    split
    · rename_i rest heq
      rw [heq] at hdigit
      exact absurd (hdigit '-' (.head _)) (by decide)
    · rename_i rest heq
      rw [heq] at hdigit
      exact absurd (hdigit '+' (.head _)) (by decide)
    · rfl

/-- An integer with a point and a zero. -/
theorem readSign_pointZero : readSign (toString n ++ ".0").toList =
    (decide (n < 0), Nat.toDigits 10 n.natAbs ++ ['.', '0']) := by
  have hne : (toString n).toList ≠ [] := by
    obtain ⟨c, rest, htext, -⟩ := Json.startsNumber_int n
    rw [htext]
    exact List.cons_ne_nil _ _
  rw [String.toList_append, Json.Numeral.readSign_append hne, readSign_toString]
  rfl

/-- **An integer is read back.** -/
theorem readInteger?_toString : readInteger? (toString n).toList = some n := by
  have hdigits : Nat.toDigits 10 n.natAbs ≠ [] ∧ (Nat.toDigits 10 n.natAbs).all Char.isDigit :=
    ⟨Nat.toDigits_ne_nil, List.all_eq_true.2 (forall_toDigits (fun _ h => h) _)⟩
  unfold readInteger?
  rw [readSign_toString]
  dsimp only
  rw [if_pos hdigits, Json.Numeral.natOfDigits_toDigits]
  simp only [decide_eq_true_eq, Option.some.injEq]
  split <;> omega

theorem readInteger?_pointZero : readInteger? (toString n ++ ".0").toList = none := by
  unfold readInteger?
  rw [readSign_pointZero]
  dsimp only
  rw [if_neg]
  rintro ⟨-, hall⟩
  have hpoint := List.all_eq_true.1 hall '.' (by simp)
  exact absurd hpoint (by decide)

theorem natOfDigits_append_zero (digits : List Char) :
    natOfDigits (digits ++ ['0']) = 10 * natOfDigits digits := by
  unfold natOfDigits
  rw [List.foldl_append]
  rfl

theorem Decimal.read?_pointZero : Decimal.read? (toString n ++ ".0").toList =
    some ⟨decide (n < 0), 10 * n.natAbs, -1⟩ := by
  have hspan : (Nat.toDigits 10 n.natAbs ++ ['.', '0']).span Char.isDigit =
      (Nat.toDigits 10 n.natAbs, ['.', '0']) := by
    rw [Json.span_append (by simp), Json.span_of_forall (forall_toDigits (fun _ h => h) _)]
    rfl
  have hfraction : readFraction ['.', '0'] = (['0'], []) := rfl
  unfold read?
  rw [readSign_pointZero]
  dsimp only
  rw [hspan, hfraction]
  dsimp only
  rw [natOfDigits_append_zero, Json.Numeral.natOfDigits_toDigits]
  simp [readExponent?]

/-! ## The double of an integer -/

/-- **What is read has the value of the integer**, if a double has it. -/
theorem Decimal.hasValue_toBinary64 {x : Binary64} (h : x.HasValue n) :
    (Decimal.mk (decide (n < 0)) (10 * n.natAbs) (-1)).toBinary64.HasValue n := by
  unfold toBinary64
  dsimp only
  split
  · -- the exponent is not far below, so the integer is zero
    rename_i hsmall
    have hzero : n = 0 := by omega
    subst hzero
    decide +kernel
  · have hnum : 10 * n.natAbs * pow10 (-1 : Int).toNat * 2 ^ 1074 =
        pow10 (-(-1) : Int).toNat * x.magnitude := by
      have hone : pow10 (-1 : Int).toNat = 1 := rfl
      have hten : pow10 (-(-1) : Int).toNat = 10 := rfl
      rw [h.magnitude, hone, hten, pow2_eq, Nat.mul_one, Nat.mul_assoc]
    rw [if_neg (by decide)]
    obtain ⟨hmagnitude, hfinite⟩ :=
      Binary64.ofQuotient_exact (decide (n < 0)) h.1 (by decide) hnum
    refine Binary64.hasValue_of_magnitude hfinite (Binary64.isNegative_ofQuotient _ _ _) ?_
    rw [hmagnitude, h.magnitude]

end SweepCharts
