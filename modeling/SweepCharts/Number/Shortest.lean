import SweepCharts.Number.Binary64

set_option autoImplicit false

/-! # The fewest digits that read back

`Digits.shortest tie x` is the decimal with the fewest digits among those that round to `x`, and of
these the nearest to `x`; `tie` decides between two that are equally near. A grid of decimals
`c * 10 ^ k` meets the interval of reals that round to `x` only if one of the two neighbours of `x`
on the grid lies in it, so two candidates a grid are enough, from the coarsest grid to finer ones.
-/

namespace SweepCharts

/-- The positive decimal `coefficient * 10 ^ exponent`. -/
structure Digits where
  coefficient : Nat
  exponent : Int
  deriving DecidableEq, Repr

namespace Digits

/-- The reals that round to a double: all between `low / den` and `high / den`, with both ends if
`closed`; the double itself is `value / den`. -/
structure Interval where
  low : Nat
  value : Nat
  high : Nat
  den : Nat
  closed : Bool

/-- The interval of a positive finite double. The neighbour below a power of two is half as far
away as the one above. -/
def Interval.ofBinary64 (x : Binary64) : Interval :=
  let unit := pow2 x.shift
  let gapBelow := if x.significand = pow2 52 ∧ x.shift ≠ 0 then 1 else 2
  { low := (4 * x.significand - gapBelow) * unit
    value := 4 * x.significand * unit
    high := (4 * x.significand + 2) * unit
    den := pow2 1076
    closed := x.significand % 2 = 0 }

/-- The interval in units of `10 ^ k`. -/
def Interval.scale (i : Interval) (k : Int) : Interval :=
  let up := pow10 (-k).toNat
  { i with low := i.low * up, value := i.value * up, high := i.high * up,
           den := i.den * pow10 k.toNat }

/-- Whether the interval holds the whole number `c`. -/
def Interval.holds (i : Interval) (c : Nat) : Bool :=
  if i.closed then i.low ≤ c * i.den && c * i.den ≤ i.high
  else i.low < c * i.den && c * i.den < i.high

/-- The whole number in the interval that is nearest to the double, if it holds one. -/
def Interval.nearest? (tie : Tie) (i : Interval) : Option Nat :=
  let below := i.value / i.den
  let nearest := roundQuotient tie i.value i.den
  if i.holds nearest then some nearest
  else if i.holds below then some below
  else if i.holds (below + 1) then some (below + 1)
  else none

/-- The exponent of the leading digit of `num / den`, from an estimate that is at most one off. -/
def leadingExponent (num den : Nat) : Int :=
  let estimate := ((num.log2 : Int) - den.log2) * 30103 / 100000
  let atLeast (k : Int) : Bool := den * pow10 k.toNat ≤ num * pow10 (-k).toNat
  if !atLeast estimate then estimate - 1
  else if atLeast (estimate + 1) then estimate + 1
  else estimate

/-- The first hit on the grids `10 ^ k`, `10 ^ (k - 1)`, …, at most `grids` of them. -/
def search (tie : Tie) (i : Interval) (k : Int) : Nat → Digits
  | 0 => ⟨(i.scale k).value / (i.scale k).den, k⟩
  | grids + 1 =>
    match (i.scale k).nearest? tie with
    | some c => ⟨c, k⟩
    | none => search tie i (k - 1) grids

/-- Zeros at the end of the coefficient moved into the exponent, at most `fuel` of them. -/
def strip (d : Digits) : Nat → Digits
  | 0 => d
  | fuel + 1 =>
    if d.coefficient % 10 = 0 then strip ⟨d.coefficient / 10, d.exponent + 1⟩ fuel else d

/-- The shortest decimal of a positive finite double; 17 digits always suffice. -/
def shortest (tie : Tie) (x : Binary64) : Digits :=
  let i := Interval.ofBinary64 x
  (search tie i (leadingExponent i.value i.den) 17).strip 17

/-- The digits of the coefficient, the leading one first. -/
def text (d : Digits) : List Char := Nat.toDigits 10 d.coefficient

/-- The exponent of the leading digit. -/
def leading (d : Digits) : Int := d.exponent + (d.text.length - 1 : Nat)

end Digits

end SweepCharts
