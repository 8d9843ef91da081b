import SweepCharts.Sweep.Usability

set_option autoImplicit false

/-! # Throughput against latency

One point a usable record, in the order of the records.
-/

namespace SweepCharts.Scatter

def needs : Needs where
  required := [.throughputMsgSec, .p99Ms, .batchSize]
  optional := [.flushIntervalMs, .serverBackpressure]

structure Point where
  label : String
  throughput : Binary64
  p99 : Binary64
  batchSize : Int
  backpressure : Int
  deriving DecidableEq

/-- The diameter of a marker whose area grows with the batch size, by 16 for each unit; at
least 4. -/
def Point.symbolSize (p : Point) : Binary64 :=
  Binary64.larger (Float.sqrt (Binary64.ofInt (max p.batchSize 0) * 16)) 4

/-- The point of a record that has all values. A missing count of backpressure is 0. -/
def point? (r : Record) : Option Point := do
  some ⟨r.label, ← r.throughputMsgSec, ← r.p99Ms, ← r.batchSize, r.serverBackpressure⟩

/-- The points of the usable records and the warnings of the others. -/
def build (records : List Record) : List Point × List LogLine :=
  needs.collect .throughputVsLatency point? records

def points (records : List Record) : List Point := (build records).1

def warnings (records : List Record) : List LogLine := (build records).2

end SweepCharts.Scatter
