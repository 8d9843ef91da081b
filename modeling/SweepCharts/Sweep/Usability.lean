import SweepCharts.Chart.KindJson
import SweepCharts.Sweep.Record
import SweepCharts.Text.Message

set_option autoImplicit false

/-! # Records that a chart can use

A chart needs some columns and reads others if they have a value. A record with a problem in one of
these columns is skipped by the chart, with a warning that names its row; problems in other columns
do not matter. `Needs.loop` goes over the records for all charts.
-/

namespace SweepCharts

/-- Why a column of a record cannot be used. -/
inductive Problem where
  | notNumber (column : String) (cell : Cell)
  | missing (column : String)
  deriving DecidableEq

def Problem.message : Problem → String
  | notNumber column cell => column ++ " is not a number: '" ++ cell.display ++ "'"
  | missing column => column ++ " is missing"

/-- Cells that are no numbers in any of the columns come first, then required columns without a
cell. -/
def Record.problems (r : Record) (required optional : List String) : List Problem :=
  (required ++ optional).filterMap (fun c => (r.invalid.get? c).map (.notNumber c)) ++
    (required.filter fun c => !r.invalid.contains c && !r.hasValue c).map .missing

/-- The columns that a chart reads. -/
structure Needs where
  required : List Column
  optional : List Column

/-- The problems of a record for a chart. -/
def Needs.problems (needs : Needs) (r : Record) : List Problem :=
  r.problems (needs.required.map Column.name) (needs.optional.map Column.name)

/-- Whether a chart can use a record. -/
def Needs.meets (needs : Needs) (r : Record) : Bool := (needs.problems r).isEmpty

/-- The warning for a record that a chart skips. -/
def skipWarning (kind : ChartKind) (r : Record) (problems : List Problem) : LogLine :=
  .warn ("Skipping record at " ++ r.origin.file ++ ":" ++ toString r.origin.line ++ " in " ++
    kind.display ++ ": " ++ ", ".intercalate (problems.map Problem.message))

namespace Needs

/-- Whether a chart can use a record, and the warning if it cannot. -/
def check (needs : Needs) (kind : ChartKind) (r : Record) : Bool × List LogLine :=
  if needs.meets r then (true, []) else (false, [skipWarning kind r (needs.problems r)])

/-- Goes over records in their order, takes those that a chart can use, and warns of the others. -/
def loop {σ : Type} (needs : Needs) (kind : ChartKind) (take : σ → Record → σ) :
    σ → List Record → σ × List LogLine
  | s, [] => (s, [])
  | s, r :: rest =>
    let checked := needs.check kind r
    let after := needs.loop kind take (if checked.1 then take s r else s) rest
    (after.1, checked.2 ++ after.2)

/-- The points of the records that a chart can use, and the warnings of the others. -/
def collect {α : Type} (needs : Needs) (kind : ChartKind) (point? : Record → Option α)
    (records : List Record) : List α × List LogLine :=
  needs.loop kind (fun points r => points ++ (point? r).toList) [] records

end Needs

end SweepCharts
