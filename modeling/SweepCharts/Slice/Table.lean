import SweepCharts.Cell.Basic
import SweepCharts.Csv.Table
import SweepCharts.Number.Decimal
import SweepCharts.Slice.Row

set_option autoImplicit false

/-! # Reading a slice sweep

Columns are found by their names in the header, or by position if the header is not UTF-8. Every
record must be as long as the header. Cells are read from left to right and the first fault counts;
a missing field is one only after all cells were read.
-/

namespace SweepCharts.SliceRow

open Csv (CellFault Error Row)

/-! ## Cells -/

/-- Blank bytes that are dropped before a cell is read as text. -/
def isBlankByte (b : UInt8) : Bool :=
  b == 0x20 || b == 0x09 || b == 0x0A || b == 0x0C || b == 0x0D

/-- A cell without blanks at its ends. -/
def trimText (text : String) : String := String.ofList (trimmed text)

/-- The texts of a record, without blanks at the ends of cells. -/
def textsOf (row : Row) : Except Error (List String) :=
  let bytes := { row with cells := row.cells.map (trimBoth isBlankByte) }
  bytes.texts.map fun texts => texts.map trimText

/-- A number in a column. -/
def readNumber (column : Nat) (cell : String) : Except CellFault Binary64 :=
  if cell.isEmpty then .error (.emptyNumber column)
  else
    match Binary64.read? cell.toList with
    | some x => .ok x
    | none => .error (.badNumber column)

/-! ## Records -/

/-- The fields of a row that were read so far. -/
structure Draft where
  mode : Option String := none
  sliceSize : Option Binary64 := none
  throughput : Option Binary64 := none
  gc : Option Binary64 := none
  p99Delay : Option Binary64 := none
  deriving DecidableEq

namespace Draft

def has (d : Draft) : SliceField → Bool
  | .mode => d.mode.isSome
  | .sliceSize => d.sliceSize.isSome
  | .throughput => d.throughput.isSome
  | .gc => d.gc.isSome
  | .p99Delay => d.p99Delay.isSome

/-- Fills a field from the cell in a column. -/
def set (d : Draft) (field : SliceField) (column : Nat) (cell : String) :
    Except CellFault Draft :=
  match field with
  | .mode => .ok { d with mode := some cell }
  | .sliceSize => (readNumber column cell).map fun x => { d with sliceSize := some x }
  | .throughput => (readNumber column cell).map fun x => { d with throughput := some x }
  | .gc => (readNumber column cell).map fun x => { d with gc := some x }
  | .p99Delay => (readNumber column cell).map fun x => { d with p99Delay := some x }

/-- Reads the cell in a column under a name; unknown names are passed over. -/
def read (d : Draft) (column : Nat) (name cell : String) : Except CellFault Draft :=
  match SliceField.ofName? name with
  | none => .ok d
  | some field => if d.has field then .error (.repeatedField name) else d.set field column cell

/-- Reads cells under their names, the first of them in column `column`. -/
def readFrom (d : Draft) (column : Nat) : List (String × String) → Except CellFault Draft
  | [] => .ok d
  | (name, cell) :: rest => do
    let d ← d.read column name cell
    d.readFrom (column + 1) rest

/-- The row, once all fields were read. -/
def finish (d : Draft) : Except CellFault SliceRow := do
  let need {α : Type} (field : SliceField) (value : Option α) : Except CellFault α :=
    match value with
    | some x => .ok x
    | none => .error (.missingField field.name)
  let mode ← need .mode d.mode
  let sliceSize ← need .sliceSize d.sliceSize
  let throughput ← need .throughput d.throughput
  let gc ← need .gc d.gc
  let p99Delay ← need .p99Delay d.p99Delay
  .ok ⟨mode, sliceSize, throughput, gc, p99Delay⟩

end Draft

/-- A row by the names of the header. -/
def ofNamed (names cells : List String) : Except CellFault SliceRow := do
  let d ← Draft.readFrom {} 0 (names.zip cells)
  d.finish

/-- A row by position; cells beyond the fields are passed over. -/
def ofPositions (cells : List String) : Except CellFault SliceRow := do
  let fields := SliceField.all
  let d ← Draft.readFrom {} 0 ((fields.map SliceField.name).zip cells)
  if cells.length < fields.length then
    .error (.tooFew cells.length fields.length "SliceSweepRecord")
  else d.finish

/-- A row of the table, as long as the header and under its names, if it has names. -/
def ofRow (width : Nat) (names : Option (List String)) (row : Row) : Except Error SliceRow := do
  if row.cells.length ≠ width then .error (.length row.position row.cells.length width)
  let cells ← textsOf row
  let read := match names with
    | some names => ofNamed names cells
    | none => ofPositions cells
  read.mapError (Error.cell row.position)

/-- The rows of a slice sweep in text form, or its first fault. -/
def readTable (bytes : List UInt8) : Except Error (List SliceRow) :=
  match Csv.scan bytes with
  | [] => .ok []
  | header :: data =>
    data.mapM (ofRow header.cells.length (textsOf header).toOption)

end SweepCharts.SliceRow
