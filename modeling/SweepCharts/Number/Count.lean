import SweepCharts.Number.Layout

set_option autoImplicit false

/-! # Counts for readers

A large count is written with a decimal scale letter and few decimals, e.g. `12.5k`.
-/

namespace SweepCharts

/-- A power of a thousand: its letter, and the decimals that a count keeps there. -/
structure CountScale where
  letter : String
  decimals : Nat

namespace CountScale

def units : CountScale := ⟨"", 1⟩

/-- The scales above the units. -/
def larger : List CountScale :=
  [⟨"k", 1⟩, ⟨"M", 1⟩, ⟨"G", 2⟩, ⟨"T", 2⟩, ⟨"P", 2⟩, ⟨"E", 2⟩, ⟨"Z", 2⟩, ⟨"Y", 2⟩]

/-- A value rounded to a count of decimals, a half going away from zero. -/
def roundTo (decimals : Nat) (x : Binary64) : Binary64 :=
  let factor := Binary64.ofInt (pow10 decimals)
  Binary64.round (x * factor : Float) / factor

/-- The least count of decimals, at most two, that shows a rounded value. -/
def decimalsOf (x : Binary64) : Nat :=
  if x.toInt?.isSome then 0
  else if (Binary64.toInt? (x * 10 : Float)).isSome then 1
  else 2

/-- A value at the first scale where it rounds to less than a thousand, or at the last one. -/
def write (x : Binary64) (scale : CountScale) : List CountScale → String
  | [] =>
    let r := roundTo scale.decimals x
    r.fixed (decimalsOf r) ++ scale.letter
  | next :: rest =>
    let r := roundTo scale.decimals x
    if r.below 1000 then r.fixed (decimalsOf r) ++ scale.letter
    else write (x / 1000 : Float) next rest

end CountScale

/-- A count without a unit. -/
def writeCount (n : Nat) : String :=
  CountScale.write (Binary64.ofInt n) CountScale.units CountScale.larger

/-- A count of bytes. -/
def writeBytes (n : Nat) : String := writeCount n ++ "B"

end SweepCharts
