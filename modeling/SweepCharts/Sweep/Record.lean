import SweepCharts.Cell.Reading
import SweepCharts.Columns
import SweepCharts.Sweep.Column

set_option autoImplicit false

/-! # Records of a sweep

A record holds the measurements of one configuration. Every cell of its row ends up in one place: a
typed field, `extra` for columns that are not known, or `invalid` for known columns whose cell has
not the type of the column. Blank cells of known columns count as absent.
-/

namespace SweepCharts

/-- Where a record was read. -/
structure Origin where
  file : String
  line : Nat
  deriving DecidableEq, Repr

/-- Buffering statistics of one side of the transport. -/
structure Stats where
  flushes : Option Int := none
  avgBuffers : Option Binary64 := none
  maxBuffers : Option Int := none
  avgBytes : Option Binary64 := none
  maxBytes : Option Int := none
  backpressure : Option Int := none
  deriving DecidableEq

/-- The measurements of one configuration. -/
structure Record where
  origin : Origin
  batchSize : Option Int := none
  flushIntervalMs : Option Int := none
  frames : Option Int := none
  payloadBytes : Option Int := none
  timeoutMs : Option Int := none
  p50Ms : Option Binary64 := none
  p99Ms : Option Binary64 := none
  maxMs : Option Binary64 := none
  throughputMsgSec : Option Binary64 := none
  received : Option Int := none
  dropped : Option Int := none
  outstanding : Option Int := none
  client : Stats := {}
  server : Stats := {}
  /-- Cells of columns that are not known. -/
  extra : Columns Cell := .empty
  /-- Cells of known columns that are not numbers of the column's type. -/
  invalid : Columns Cell := .empty
  deriving DecidableEq

namespace Stats

/-- The value of a statistic. -/
def value? (s : Stats) : Stat → Option Cell
  | .flushes => s.flushes.map .int
  | .avgBuffers => s.avgBuffers.map .float
  | .maxBuffers => s.maxBuffers.map .int
  | .avgBytes => s.avgBytes.map .float
  | .maxBytes => s.maxBytes.map .int
  | .backpressure => s.backpressure.map .int

/-- Whether the column with this suffix has a value. -/
def hasValue (s : Stats) (suffix : String) : Bool :=
  ((Stat.ofSuffix? suffix).bind s.value?).isSome

end Stats

/-! ## From a row -/

/-- A row whose columns are being taken. -/
structure Taking where
  /-- The cells that were not taken. -/
  left : Columns Cell
  /-- Taken cells that are neither blank nor a number of the column's type. -/
  invalid : Columns Cell := .empty

namespace Taking

/-- Takes a column out of a row. A blank cell counts as absent, and a cell that does not convert is
set aside. -/
def take {α : Type} (convert : Cell → Option α) (column : Column) : StateM Taking (Option α) :=
  fun t =>
    match t.left.get? column.name with
    | none => (none, t)
    | some cell =>
      let left := t.left.erase column.name
      if cell.isBlank then (none, { t with left })
      else
        match convert cell with
        | some value => (some value, { t with left })
        | none => (none, ⟨left, t.invalid.insert column.name cell⟩)

def int (column : Column) : StateM Taking (Option Int) := take Cell.toInt? column

def float (column : Column) : StateM Taking (Option Binary64) := take Cell.toFloat? column

end Taking

/-- Takes the statistics of one side. -/
def Stats.take (side : Side) : StateM Taking Stats := do
  let flushes ← Taking.int (.buffering side .flushes)
  let avgBuffers ← Taking.float (.buffering side .avgBuffers)
  let maxBuffers ← Taking.int (.buffering side .maxBuffers)
  let avgBytes ← Taking.float (.buffering side .avgBytes)
  let maxBytes ← Taking.int (.buffering side .maxBytes)
  let backpressure ← Taking.int (.buffering side .backpressure)
  pure { flushes, avgBuffers, maxBuffers, avgBytes, maxBytes, backpressure }

namespace Record

/-- Takes every known column. -/
def take (origin : Origin) : StateM Taking Record := do
  let batchSize ← Taking.int .batchSize
  let flushIntervalMs ← Taking.int .flushIntervalMs
  let frames ← Taking.int .frames
  let payloadBytes ← Taking.int .payloadBytes
  let timeoutMs ← Taking.int .timeoutMs
  let p50Ms ← Taking.float .p50Ms
  let p99Ms ← Taking.float .p99Ms
  let maxMs ← Taking.float .maxMs
  let throughputMsgSec ← Taking.float .throughputMsgSec
  let received ← Taking.int .received
  let dropped ← Taking.int .dropped
  let outstanding ← Taking.int .outstanding
  let client ← Stats.take .client
  let server ← Stats.take .server
  pure { origin, batchSize, flushIntervalMs, frames, payloadBytes, timeoutMs, p50Ms, p99Ms, maxMs,
         throughputMsgSec, received, dropped, outstanding, client, server }

/-- The record of a row of cells. What is left after all known columns were taken is unknown. -/
def ofCells (origin : Origin) (cells : Columns Cell) : Record :=
  let (r, t) := (take origin).run { left := cells }
  { r with extra := t.left, invalid := t.invalid }

/-- The record of a row of texts. -/
def ofRow (origin : Origin) (row : Columns String) : Record :=
  ofCells origin (row.map Cell.ofText)

/-! ## Values -/

/-- The statistics of one side. -/
def side (r : Record) : Side → Stats
  | .client => r.client
  | .server => r.server

/-- The value of a column. -/
def value? (r : Record) : Column → Option Cell
  | .batchSize => r.batchSize.map .int
  | .flushIntervalMs => r.flushIntervalMs.map .int
  | .frames => r.frames.map .int
  | .payloadBytes => r.payloadBytes.map .int
  | .timeoutMs => r.timeoutMs.map .int
  | .p50Ms => r.p50Ms.map .float
  | .p99Ms => r.p99Ms.map .float
  | .maxMs => r.maxMs.map .float
  | .throughputMsgSec => r.throughputMsgSec.map .float
  | .received => r.received.map .int
  | .dropped => r.dropped.map .int
  | .outstanding => r.outstanding.map .int
  | .buffering side stat => (r.side side).value? stat

/-- Whether a name is that of a column with a value. A name that is not plain is split after its
side, the client's name first, and the rest is looked up in the statistics of that side. -/
def hasValue (r : Record) (name : String) : Bool :=
  match Column.plain.find? fun c => c.name = name with
  | some c => (r.value? c).isSome
  | none =>
    match Side.client.suffix? name with
    | some suffix => r.client.hasValue suffix
    | none =>
      match Side.server.suffix? name with
      | some suffix => r.server.hasValue suffix
      | none => false

/-- The flush interval; a missing one is 0 ms. -/
def flushInterval (r : Record) : Int := r.flushIntervalMs.getD 0

/-- The backpressure events of the server; a missing count is 0. -/
def serverBackpressure (r : Record) : Int := r.server.backpressure.getD 0

/-- A short name of the configuration, e.g. `b16 f5`. -/
def label (r : Record) : String :=
  let batch := match r.batchSize with
    | some n => toString n
    | none => "?"
  "b" ++ batch ++ " f" ++ toString r.flushInterval

end Record

end SweepCharts
