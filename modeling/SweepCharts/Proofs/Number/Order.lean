import SweepCharts.Number.Binary64

set_option autoImplicit false

/-! # The order of doubles

Without NaN, doubles are ordered like their values; the two zeros are one value. A NaN is at most
nothing, and nothing is at most a NaN.

* `below_eq`: what is below without NaN.
* `atMost_larger`: the larger one of two is not below the first.
-/

namespace SweepCharts.Binary64

/-- Two numbers, the first one not above the second. -/
def AtMost (x y : Binary64) : Prop := x.isNaN = false ∧ y.isNaN = false ∧ x.scaled ≤ y.scaled

variable {x y z : Binary64}

instance : Decidable (x.AtMost y) := inferInstanceAs (Decidable (_ ∧ _ ∧ _))

theorem below_eq (hx : x.isNaN = false) (hy : y.isNaN = false) :
    x.below y = decide (x.scaled < y.scaled) := by
  rw [below, hx, hy]
  rfl

theorem AtMost.trans (hxy : x.AtMost y) (hyz : y.AtMost z) : x.AtMost z :=
  ⟨hxy.1, hyz.2.1, Int.le_trans hxy.2.2 hyz.2.2⟩

theorem atMost_larger (hx : x.isNaN = false) (y : Binary64) : x.AtMost (x.larger y) := by
  unfold larger
  cases hy : y.isNaN with
  | true => exact ⟨hx, hx, Int.le_refl _⟩
  | false =>
    rw [below_eq hy hx]
    split
    · exact ⟨hx, hx, Int.le_refl _⟩
    · rename_i hnot
      rw [Bool.false_or, decide_eq_true_eq] at hnot
      exact ⟨hx, hy, Int.not_lt.1 hnot⟩

end SweepCharts.Binary64
