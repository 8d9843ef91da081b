set_option autoImplicit false

/-! # Rounding a quotient to a whole number

`roundHalfEven` and `roundHalfUp` differ only on a tie; `roundQuotient` takes the rule for ties as
an argument. All are exact: they never leave the natural numbers.
-/

namespace SweepCharts

/-- The whole number nearest to `num / den`; a half goes to the even neighbour. -/
def roundHalfEven (num den : Nat) : Nat :=
  let quotient := num / den
  let twice := 2 * (num % den)
  if twice < den then quotient
  else if den < twice then quotient + 1
  else quotient + quotient % 2

/-- The whole number nearest to `num / den`; a half goes up. -/
def roundHalfUp (num den : Nat) : Nat :=
  (2 * num + den) / (2 * den)

/-- Where a half goes. -/
inductive Tie where
  | even | up
  deriving DecidableEq, Repr

/-- The whole number nearest to `num / den`. -/
def roundQuotient (tie : Tie) (num den : Nat) : Nat :=
  match tie with
  | .even => roundHalfEven num den
  | .up => roundHalfUp num den

end SweepCharts
