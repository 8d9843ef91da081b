import SweepCharts.Sweep.Record

set_option autoImplicit false

/-! # Order by configuration

Records in ascending order of flush interval, then of batch size, missing values read as 0. Records
of one configuration keep their order.
-/

namespace SweepCharts

/-- What is varied over a sweep. -/
structure Configuration where
  flushInterval : Int
  batchSize : Int
  deriving DecidableEq, Repr

namespace Configuration

/-- Lexicographic order, the flush interval first. -/
def le (a b : Configuration) : Bool :=
  a.flushInterval < b.flushInterval ||
    (a.flushInterval = b.flushInterval && a.batchSize ≤ b.batchSize)

end Configuration

namespace Record

/-- The configuration that a record is sorted by. -/
def configuration (r : Record) : Configuration := ⟨r.flushInterval, r.batchSize.getD 0⟩

/-- The records in the order of their configurations. -/
def sortByConfiguration (records : List Record) : List Record :=
  records.mergeSort fun a b => a.configuration.le b.configuration

end Record

end SweepCharts
