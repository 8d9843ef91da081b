import SweepCharts.Number.Shortest

set_option autoImplicit false

/-! # Doubles written out

A `Layout` says how the shortest digits of a double are laid out. `Layout.json` is the form of
numbers in JSON texts and `Layout.plain` the form of numbers in messages. `Binary64.fixed` writes a
given count of decimals from the exact value.
-/

namespace SweepCharts

/-- How digits become text. -/
structure Layout where
  /-- Exponents of the leading digit that are written without a power of ten. -/
  positional : Int → Bool
  /-- What follows a whole number. -/
  wholeSuffix : String
  /-- Which of two equally near shortest decimals is written. -/
  tie : Tie

namespace Layout

/-- Numbers in JSON: positional from `10 ^ -5` to below `10 ^ 16`, where a whole number keeps a
decimal; beyond, a power of ten with its sign. A tie goes to the even digit. -/
def json : Layout := ⟨fun e => -5 ≤ e && e ≤ 15, ".0", .even⟩

/-- Numbers in messages: always positional, a whole number without a point. A tie goes up. -/
def plain : Layout := ⟨fun _ => true, "", .up⟩

def zeros (n : Nat) : List Char := List.replicate n '0'

/-- The digits with the point at its place, padded by zeros on either side. -/
def writePositional (layout : Layout) (d : Digits) : String :=
  let digits := d.text
  if 0 ≤ d.exponent then
    String.ofList (digits ++ zeros d.exponent.toNat) ++ layout.wholeSuffix
  else
    let places := (-d.exponent).toNat
    let padded := zeros (places + 1 - digits.length) ++ digits
    let whole := padded.length - places
    String.ofList (padded.take whole ++ '.' :: padded.drop whole)

/-- The leading digit, the others after a point, and a power of ten with its sign. -/
def writeScientific (d : Digits) : String :=
  let mantissa := match d.text with
    | [] => []
    | [c] => [c]
    | c :: rest => c :: '.' :: rest
  let sign := if d.leading < 0 then "-" else "+"
  String.ofList mantissa ++ "e" ++ sign ++ toString d.leading.natAbs

/-- The text of a double. -/
def write (layout : Layout) (x : Binary64) : String :=
  let sign := if x.isNegative then "-" else ""
  if x.isNaN then "NaN"
  else if !x.isFinite then sign ++ "inf"
  else if x.magnitude = 0 then sign ++ "0" ++ layout.wholeSuffix
  else
    let d := Digits.shortest layout.tie x
    sign ++ if layout.positional d.leading then layout.writePositional d else writeScientific d

end Layout

namespace Binary64

/-- The exact value with a count of decimals, a half going to the even digit. -/
def fixed (places : Nat) (x : Binary64) : String :=
  let sign := if x.isNegative then "-" else ""
  if x.isNaN then "NaN"
  else if !x.isFinite then sign ++ "inf"
  else
    let n := roundHalfEven (x.magnitude * pow10 places) (pow2 1074)
    let fraction := Nat.toDigits 10 (n % pow10 places)
    let decimals := Layout.zeros (places - fraction.length) ++ fraction
    let point := if places = 0 then "" else "." ++ String.ofList decimals
    sign ++ toString (n / pow10 places) ++ point

end Binary64

end SweepCharts
