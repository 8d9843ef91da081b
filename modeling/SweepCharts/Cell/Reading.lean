import SweepCharts.Cell.Basic
import SweepCharts.Json.Reader

set_option autoImplicit false

/-! # Reading cells

`Cell.ofText` reads the text of a table cell: an integer if it is one, else a finite decimal, else
the text as it is. `Cell.ofJson?` reads a cell back from JSON.
-/

namespace SweepCharts

/-- Whether an integer fits 64 bits with a sign. -/
def fits64 (n : Int) : Bool := -(pow2 63) ≤ n && n < pow2 63

namespace Cell

/-- The cell that a text holds. Blanks around a number are dropped, those of a text are kept. -/
def ofText (raw : String) : Cell :=
  let chars := trimmed raw
  match (readInteger? chars).filter fits64 with
  | some n => int n
  | none =>
    match (Binary64.read? chars).filter Binary64.isFinite with
    | some x => float x
    | none => text raw

/-- The cell that a JSON value stands for: only numbers and strings do. -/
def ofJson? : Json → Option Cell
  | .int n => some (if fits64 n then int n else float (Binary64.ofInt n))
  | .float x => some (float x)
  | .string s => some (text s)
  | _ => none

/-- The cell that a JSON text holds. -/
def readJson? (source : String) : Option Cell := (Json.read? source).bind ofJson?

end Cell

end SweepCharts
