import SweepCharts.Columns
import SweepCharts.Csv.Scanner
import SweepCharts.Text.Utf8

set_option autoImplicit false

/-! # Tables with a header

The first record of a table names its columns. `readTable` gives every other record as the map from
names to cells, with the line where it was met; the only fault it knows is text that is not UTF-8.
-/

namespace SweepCharts.Csv

/-- Why a cell does not fill its field. -/
inductive CellFault where
  /-- An empty text is no number. -/
  | emptyNumber (column : Nat)
  | badNumber (column : Nat)
  | repeatedField (name : String)
  | missingField (name : String)
  /-- Too few cells, of an expected count, where the columns have no names. -/
  | tooFew (found : Nat) (expected : Nat) (what : String)
  deriving DecidableEq, Repr

/-- Why a table cannot be read. -/
inductive Error where
  /-- A cell is not UTF-8; `valid` counts its bytes before the fault. -/
  | encoding (position : Position) (field valid : Nat)
  /-- A record has not as many cells as the header. -/
  | length (position : Position) (found expected : Nat)
  | cell (position : Position) (fault : CellFault)
  /-- The path names a directory. -/
  | directory
  deriving DecidableEq, Repr

namespace CellFault

def message : CellFault → String
  | emptyNumber column => "field " ++ toString column ++ ": cannot parse float from empty string"
  | badNumber column => "field " ++ toString column ++ ": invalid float literal"
  | repeatedField name => "duplicate field \x60" ++ name ++ "\x60"
  | missingField name => "missing field \x60" ++ name ++ "\x60"
  | tooFew found expected what =>
    "invalid length " ++ toString found ++ ", expected struct " ++ what ++ " with " ++
      toString expected ++ " elements"

end CellFault

namespace Error

/-- A position in the form of errors found after the cells were cut. -/
def place (p : Position) : String :=
  "record " ++ toString p.record ++ " (line: " ++ toString p.line ++ ", byte: " ++
    toString p.byte ++ ")"

def message : Error → String
  | encoding p field valid =>
    "CSV parse error: record " ++ toString p.record ++ " (line " ++ toString p.line ++
      ", field: " ++ toString field ++ ", byte: " ++ toString p.byte ++
      "): invalid utf-8: invalid UTF-8 in field " ++ toString field ++ " near byte index " ++
      toString valid
  | length p found expected =>
    "CSV error: " ++ place p ++ ": found record with " ++ toString found ++
      " fields, but the previous record has " ++ toString expected ++ " fields"
  | cell p fault => "CSV deserialize error: " ++ place p ++ ": " ++ fault.message
  | directory => "Is a directory (os error 21)"

end Error

/-- The texts of cells, the first of them in column `field`. -/
def decodeFrom (p : Position) (field : Nat) : List (List UInt8) → Except Error (List String)
  | [] => .ok []
  | cell :: rest =>
    match Utf8.decode cell with
    | .error valid => .error (.encoding p field valid)
    | .ok text => (decodeFrom p (field + 1) rest).map (String.ofList text :: ·)

/-- The texts of a record. -/
def Row.texts (row : Row) : Except Error (List String) := decodeFrom row.position 0 row.cells

/-- A record as a map from column names to cells, with the line where it was met. -/
structure Line where
  number : Nat
  fields : Columns String
  deriving DecidableEq

/-- A data record under the names of a header. Cells past the header are dropped, columns that the
record does not reach are absent, and of a repeated name the last cell stays. -/
def Row.line (names : List String) (row : Row) : Except Error Line := do
  let cells ← row.texts
  pure ⟨row.position.line, Columns.ofList (names.zip cells)⟩

/-- The data records of a table, or its first fault. -/
def readTable (bytes : List UInt8) : Except Error (List Line) :=
  match scan bytes with
  | [] => .ok []
  | header :: data => do
    let names ← header.texts
    data.mapM (Row.line names)

end SweepCharts.Csv
