import SweepCharts.Number.Binary64

set_option autoImplicit false

/-! # Decimal numbers in text

An integer is an optional sign and one or more digits. A decimal may also have a point, with at
least one digit beside it, and a power of ten. `Decimal.toBinary64` rounds once, from the exact
value.
-/

namespace SweepCharts

/-- The number that a list of digits writes. -/
def natOfDigits (digits : List Char) : Nat :=
  digits.foldl (fun n c => 10 * n + (c.toNat - '0'.toNat)) 0

/-- An optional sign, true for a minus, and the text after it. -/
def readSign : List Char → Bool × List Char
  | '-' :: rest => (true, rest)
  | '+' :: rest => (false, rest)
  | text => (false, text)

/-- An integer: an optional sign, then one or more digits and nothing else. -/
def readInteger? (text : List Char) : Option Int :=
  let (negative, digits) := readSign text
  if digits ≠ [] ∧ digits.all Char.isDigit then
    let n : Int := natOfDigits digits
    some (if negative then -n else n)
  else none

/-- The decimal `± digits * 10 ^ exponent`. -/
structure Decimal where
  negative : Bool
  digits : Nat
  exponent : Int
  deriving DecidableEq, Repr

namespace Decimal

/-- A power of ten at the end of a decimal: nothing, or `e` and an integer. -/
def readExponent? : List Char → Option Int
  | [] => some 0
  | c :: rest => if c = 'e' ∨ c = 'E' then readInteger? rest else none

/-- The digits after a point, and the text after them. -/
def readFraction : List Char → List Char × List Char
  | '.' :: rest => rest.span Char.isDigit
  | text => ([], text)

/-- A decimal: an optional sign, digits with an optional point and at least one digit, and an
optional power of ten. -/
def read? (text : List Char) : Option Decimal :=
  let (negative, text) := readSign text
  let (whole, text) := text.span Char.isDigit
  let (fraction, text) := readFraction text
  if whole.isEmpty && fraction.isEmpty then none
  else (readExponent? text).map fun exponent =>
    ⟨negative, natOfDigits (whole ++ fraction), exponent - fraction.length⟩

/-- The nearest double. Exponents far outside the range of doubles are answered at once: a positive
whole number times `10 ^ 400` is infinite, and one below `2 ^ (b + 1)` divided by `10 ^ (b + 401)`
is nearest to zero. -/
def toBinary64 (d : Decimal) : Binary64 :=
  if d.digits = 0 ∨ d.exponent < -(d.digits.log2 + 400) then
    Binary64.ofMagnitudeBits d.negative 0
  else if 400 < d.exponent then Binary64.ofMagnitudeBits d.negative Binary64.infinityBits
  else
    Binary64.ofQuotient d.negative (d.digits * pow10 d.exponent.toNat)
      (pow10 (-d.exponent).toNat)

end Decimal

namespace Binary64

/-- A double named by a word in letters of either case. -/
def ofWord? (negative : Bool) (word : List Char) : Option Binary64 :=
  let word := String.ofList (word.map Char.toLower)
  if word = "inf" ∨ word = "infinity" then some (ofMagnitudeBits negative infinityBits)
  else if word = "nan" then some (0 / 0)
  else none

/-- A decimal, or one of the words for infinity and NaN after an optional sign. -/
def read? (text : List Char) : Option Binary64 :=
  match Decimal.read? text with
  | some d => some d.toBinary64
  | none =>
    let (negative, word) := readSign text
    ofWord? negative word

end Binary64

end SweepCharts
