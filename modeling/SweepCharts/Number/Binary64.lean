import SweepCharts.Number.Rounding

set_option autoImplicit false

/-! # Doubles as whole numbers of a common unit

Every finite double is a whole multiple of `2 ^ -1074`. `scaled x` is that multiple, so that
order, integrality and rounding of doubles are questions about integers, and `ofQuotient` is the
one place where an exact value is rounded to a double.
-/

namespace SweepCharts

/-- Two to the power `n`. -/
def pow2 (n : Nat) : Nat := Nat.pow 2 n

/-- Ten to the power `n`. -/
def pow10 (n : Nat) : Nat := Nat.pow 10 n

/-- A double, in the format of 64 bits. -/
abbrev Binary64 := Float

namespace Binary64

/-! ## Reading the bits -/

/-- The bits below the sign: exponent field and fraction. -/
def magnitudeBits (x : Binary64) : Nat := x.toBits.toNat % pow2 63

def isNegative (x : Binary64) : Bool := pow2 63 ≤ x.toBits.toNat

/-- The magnitude bits of an infinity. -/
def infinityBits : Nat := 2047 * pow2 52

def isFinite (x : Binary64) : Bool := x.magnitudeBits < infinityBits

def isNaN (x : Binary64) : Bool := infinityBits < x.magnitudeBits

/-- The significand with its leading bit. -/
def significand (x : Binary64) : Nat :=
  if x.magnitudeBits < pow2 53 then x.magnitudeBits else pow2 52 + x.magnitudeBits % pow2 52

/-- How far the significand stands above the unit `2 ^ -1074`. -/
def shift (x : Binary64) : Nat := x.magnitudeBits / pow2 52 - 1

/-- The absolute value, in units of `2 ^ -1074`. -/
def magnitude (x : Binary64) : Nat := x.significand * pow2 x.shift

/-- The value, in units of `2 ^ -1074`. An infinity lies beyond every finite double. -/
def scaled (x : Binary64) : Int :=
  if x.isNegative then -(x.magnitude : Int) else x.magnitude

/-! ## Order -/

/-- The order of the values: the two zeros are equal, and a NaN is below nothing. -/
def below (x y : Binary64) : Bool :=
  !x.isNaN && !y.isNaN && x.scaled < y.scaled

/-- The larger of two values, the second if they are equal; a NaN counts for nothing. -/
def larger (x y : Binary64) : Binary64 := if y.isNaN || y.below x then x else y

/-! ## Rounding to a double -/

/-- The double with this sign and these magnitude bits; too large a magnitude is infinite. -/
def ofMagnitudeBits (negative : Bool) (bits : Nat) : Binary64 :=
  Float.ofBits (UInt64.ofNat ((if negative then pow2 63 else 0) + min bits infinityBits))

/-- The double nearest to `num / den`, negated if `negative`; a tie goes to the even significand,
and a value from `2 ^ 1024 - 2 ^ 970` on is infinite. With the significand rounded at its place,
the magnitude bits are a sum, because a significand of `2 ^ 53` carries into the exponent. -/
def ofQuotient (negative : Bool) (num den : Nat) : Binary64 :=
  let units := num * pow2 1074
  let place := (units / den).log2 - 52
  ofMagnitudeBits negative (place * pow2 52 + roundHalfEven units (den * pow2 place))

/-- The double nearest to an integer. -/
def ofInt (n : Int) : Binary64 := ofQuotient (n < 0) n.natAbs 1

/-- The value as an integer, if it is one. -/
def toInt? (x : Binary64) : Option Int :=
  if x.isFinite && x.scaled % pow2 1074 = 0 then some (x.scaled / pow2 1074) else none

/-- The nearest whole number, a half going away from zero; the sign of a zero stays. -/
def round (x : Binary64) : Binary64 :=
  if x.isFinite then ofQuotient x.isNegative (roundHalfUp x.magnitude (pow2 1074)) 1 else x

/-- Rounded to three decimals. -/
def toThousandths (x : Binary64) : Binary64 := round (x * 1000 : Float) / (1000 : Float)

end Binary64

end SweepCharts
