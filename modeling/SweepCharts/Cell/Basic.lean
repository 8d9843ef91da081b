import SweepCharts.Json.Printer

set_option autoImplicit false

/-! # Cells

A cell of a sweep file holds an integer of 64 bits, a finite double, or any text. `Cell.ofText`
reads a cell, `toFloat?` and `toInt?` fill typed columns from it.
-/

namespace SweepCharts

/-! ## Blank characters -/

/-- The property White_Space. -/
def isBlankChar (c : Char) : Bool :=
  let n := c.toNat
  (0x9 ≤ n && n ≤ 0xD) || n = 0x20 || n = 0x85 || n = 0xA0 || n = 0x1680 ||
  (0x2000 ≤ n && n ≤ 0x200A) || n = 0x2028 || n = 0x2029 || n = 0x202F || n = 0x205F || n = 0x3000

/-- A list without the elements of a class at its two ends. -/
def trimBoth {α : Type} (drop : α → Bool) (text : List α) : List α :=
  (((text.dropWhile drop).reverse).dropWhile drop).reverse

/-- The characters of a text without the blank ones at its ends. -/
def trimmed (text : String) : List Char := trimBoth isBlankChar text.toList

/-- No character, or blank ones only. -/
def isBlankText (text : String) : Bool := text.toList.all isBlankChar

/-! ## Cells -/

inductive Cell where
  | int (value : Int)
  | float (value : Binary64)
  | text (value : String)
  deriving DecidableEq

namespace Cell

/-- The value as a double. -/
def toFloat? : Cell → Option Binary64
  | int n => some (Binary64.ofInt n)
  | float x => some x
  | text _ => none

/-- The value as an integer. A double counts if it is a whole number of absolute value below
`2 ^ 63`. -/
def toInt? : Cell → Option Int
  | int n => some n
  | float x => x.toInt?.filter fun n => n.natAbs < pow2 63
  | text _ => none

/-- A text without visible characters. -/
def isBlank : Cell → Bool
  | text s => isBlankText s
  | _ => false

/-- The cell as it appears in messages. -/
def display : Cell → String
  | int n => toString n
  | float x => Layout.plain.write x
  | text s => s

/-- The cell as a JSON value; its kind can be told from the text alone. -/
def toJson : Cell → Json
  | int n => .int n
  | float x => .float x
  | text s => .string s

end Cell

end SweepCharts
