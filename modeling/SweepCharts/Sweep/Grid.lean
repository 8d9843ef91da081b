import SweepCharts.Sweep.Axis
import SweepCharts.Sweep.Configuration
import SweepCharts.Sweep.Usability

set_option autoImplicit false

/-! # Backpressure by configuration

A table of server backpressure with a row a flush interval and a column a batch size. The last
record of a configuration counts, and a configuration that was not measured is 0.
-/

namespace SweepCharts

/-- Backpressure by flush interval (rows) and batch size (columns). -/
structure Grid where
  batchSizes : List Int
  flushIntervals : List Int
  cells : List (List Int)
  deriving DecidableEq, Repr

namespace Grid

def needs : Needs where
  required := [.batchSize]
  optional := [.flushIntervalMs, .serverBackpressure]

/-- A grid needs this many batch sizes. -/
def minBatchSizes : Nat := 1

/-- A grid needs this many flush intervals. -/
def minFlushIntervals : Nat := 2

/-- What the records met so far say: the two axes, and a backpressure for every configuration that
was measured. -/
structure Survey where
  batchSizes : List Int := []
  flushIntervals : List Int := []
  measured : List (Configuration × Int) := []
  deriving DecidableEq, Repr

namespace Survey

/-- Sets the backpressure of a configuration. -/
def measure (key : Configuration) (backpressure : Int) :
    List (Configuration × Int) → List (Configuration × Int)
  | [] => [(key, backpressure)]
  | (other, old) :: rest =>
    if other = key then (key, backpressure) :: rest
    else (other, old) :: measure key backpressure rest

/-- Adds a record that has a batch size. -/
def add (s : Survey) (r : Record) : Survey :=
  match r.batchSize with
  | some batch =>
    { batchSizes := insertDistinct batch s.batchSizes
      flushIntervals := insertDistinct r.flushInterval s.flushIntervals
      measured := measure ⟨r.flushInterval, batch⟩ r.serverBackpressure s.measured }
  | none => s

/-- The survey of the usable records and the warnings of the others, in their order. -/
def build (records : List Record) : Survey × List LogLine :=
  needs.loop .backpressureHeatmap add {} records

def ofRecords (records : List Record) : Survey := (build records).1

/-- The backpressure of a configuration, 0 if it was not measured. -/
def backpressure (s : Survey) (flushInterval batchSize : Int) : Int :=
  (s.measured.lookup ⟨flushInterval, batchSize⟩).getD 0

/-- The cells of the grid, row by row. -/
def cells (s : Survey) : List (List Int) :=
  s.flushIntervals.map fun flush => s.batchSizes.map fun batch => s.backpressure flush batch

/-- The grid of a survey, if it varies enough. -/
def grid? (s : Survey) : Option Grid :=
  if s.batchSizes.length < minBatchSizes ∨ s.flushIntervals.length < minFlushIntervals then none
  else some { batchSizes := s.batchSizes, flushIntervals := s.flushIntervals, cells := s.cells }

end Survey

/-- The grid of a sweep, if it varies enough. -/
def build? (records : List Record) : Option Grid := (Survey.ofRecords records).grid?

/-- The warnings of the records that are not in the survey. -/
def warnings (records : List Record) : List LogLine := (Survey.build records).2

/-- The cell of a configuration on the axes. -/
def value? (g : Grid) (flushInterval batchSize : Int) : Option Int := do
  let row ← g.flushIntervals.idxOf? flushInterval
  let column ← g.batchSizes.idxOf? batchSize
  (← g.cells[row]?)[column]?

/-- The largest cell. -/
def maxValue (g : Grid) : Int := (g.cells.flatten.max?).getD 0

/-- The cells as column, row and value, row by row. -/
def points (g : Grid) : List (List Binary64) :=
  g.cells.zipIdx.flatMap fun (values, row) =>
    values.zipIdx.map fun (value, column) =>
      [Binary64.ofInt column, Binary64.ofInt row, Binary64.ofInt value]

end Grid

end SweepCharts
