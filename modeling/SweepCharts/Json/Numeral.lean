import SweepCharts.Json.Value
import SweepCharts.Number.Decimal

set_option autoImplicit false

/-! # Numbers in JSON texts

A numeral is read by a rule that is fast and not always correctly rounded: its leading digits make a
significand below `2 ^ 64`, which becomes a double and is then scaled once by a power of ten. A
numeral without point and exponent that fits 64 bits stays an integer.
-/

namespace SweepCharts.Json

/-- The parts of a numeral as written. -/
structure Numeral where
  negative : Bool
  whole : List Char
  /-- The digits after a point. -/
  fraction : Option (List Char)
  /-- Whether the exponent is negative, and its digits. -/
  exponent : Option (Bool × List Char)

namespace Numeral

/-! ## Grammar -/

/-- Whether the digits before the point are one zero or start with another digit. -/
def isWhole : List Char → Bool
  | [] => false
  | '0' :: rest => rest.isEmpty
  | _ :: _ => true

def readFraction? : List Char → Option (Option (List Char) × List Char)
  | '.' :: rest =>
    let (digits, rest) := rest.span Char.isDigit
    if digits.isEmpty then none else some (some digits, rest)
  | text => some (none, text)

def readExponent? : List Char → Option (Option (Bool × List Char) × List Char)
  | c :: rest =>
    if c = 'e' ∨ c = 'E' then
      let (negative, rest) := readSign rest
      let (digits, rest) := rest.span Char.isDigit
      if digits.isEmpty then none else some (some (negative, digits), rest)
    else some (none, c :: rest)
  | [] => some (none, [])

/-- The numeral at the start of a text, and the text after it. -/
def read? (text : List Char) : Option (Numeral × List Char) := do
  let (negative, text) := match text with
    | '-' :: rest => (true, rest)
    | _ => (false, text)
  let (whole, text) := text.span Char.isDigit
  if !isWhole whole then none
  let (fraction, text) ← readFraction? text
  let (exponent, text) ← readExponent? text
  some (⟨negative, whole, fraction, exponent⟩, text)

/-! ## Value -/

/-- Digits added to a significand while it stays below `2 ^ 64`, and the digits that are left. -/
def extend (significand : Nat) : List Char → Nat × List Char
  | [] => (significand, [])
  | c :: rest =>
    let next := 10 * significand + natOfDigits [c]
    if next < pow2 64 then extend next rest else (significand, c :: rest)

/-- The significand and its power of ten: whole digits left out count as zeros, fraction digits left
out do not count. -/
def parts (n : Numeral) : Nat × Int :=
  let (whole, left) := extend 0 n.whole
  let fraction := n.fraction.getD []
  let (significand, unread) := extend whole fraction
  (significand, left.length - (fraction.length - unread.length : Nat))

/-- A power of ten as a double. -/
def powerOfTen (k : Nat) : Binary64 := Binary64.ofQuotient false (pow10 k) 1

/-- Division by a power of ten, in steps of at most `10 ^ 308`. -/
def divide (x : Binary64) (k : Nat) : Binary64 :=
  if k ≤ 308 then x / powerOfTen k
  else if x.magnitude = 0 then x
  else divide (x / powerOfTen 308) (k - 308)
termination_by k

/-- A double scaled by a power of ten, unless it leaves the range of doubles. -/
def scale? (x : Binary64) (exponent : Int) : Option Binary64 :=
  if exponent < 0 then some (divide x exponent.natAbs)
  else if x.magnitude = 0 then some x
  else if 308 < exponent then none
  else
    let y := x * powerOfTen exponent.natAbs
    if y.isFinite then some y else none

/-- The absolute value as a double. An exponent beyond 31 bits makes zero, or nothing if it is
positive and the significand is not zero. -/
def toBinary64? (n : Numeral) : Option Binary64 :=
  let (significand, place) := n.parts
  let (below, digits) := n.exponent.getD (false, [])
  let power := natOfDigits digits
  if pow2 31 ≤ power then
    if below ∨ significand = 0 then some (Binary64.ofMagnitudeBits false 0) else none
  else
    scale? (Binary64.ofInt significand) (if below then place - power else place + power)

/-- A numeral as an integer: one without point and exponent, not `-0`, and within 64 bits. -/
def toInt? (n : Numeral) : Option Int :=
  let m := natOfDigits n.whole
  if n.fraction.isSome || n.exponent.isSome then none
  else if n.negative then if 0 < m ∧ m ≤ pow2 63 then some (-m) else none
  else if m < pow2 64 then some m else none

/-- The value of a numeral. -/
def toJson? (n : Numeral) : Option Json :=
  match n.toInt? with
  | some i => some (.int i)
  | none => n.toBinary64?.map fun x => .float (if n.negative then -x else x)

end Numeral

end SweepCharts.Json
