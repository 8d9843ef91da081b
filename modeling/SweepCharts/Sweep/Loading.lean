import SweepCharts.Csv.Table
import SweepCharts.Sweep.Record

set_option autoImplicit false

/-! # Loading sweep files

`readRows` reads the rows of one file, labelled by the file's name. Rows become records without
any further failure.
-/

namespace SweepCharts

/-- A row as read: where it was met, and its texts by column. -/
structure SourceRow where
  origin : Origin
  fields : Columns String
  deriving DecidableEq

namespace SourceRow

/-- The cells of a row. -/
def cells (row : SourceRow) : Columns Cell := row.fields.map Cell.ofText

def record (row : SourceRow) : Record := .ofCells row.origin row.cells

end SourceRow

/-- The rows of a table in text form. -/
def readRows (file : String) (bytes : List UInt8) : Except Csv.Error (List SourceRow) :=
  (Csv.readTable bytes).map fun lines => lines.map fun line =>
    ⟨⟨file, line.number⟩, line.fields⟩

end SweepCharts
