import SweepCharts.Sweep.Configuration
import SweepCharts.Sweep.Usability

set_option autoImplicit false

/-! # Lines of latency and throughput

One point a usable record, in the order of the configurations. Flush intervals are not told apart,
so a sweep over several of them makes one line that runs back and forth.
-/

namespace SweepCharts.Lines

def needs : Needs where
  required := [.batchSize, .p50Ms, .p99Ms, .throughputMsgSec]
  optional := [.flushIntervalMs]

/-- What one record adds to the lines. -/
structure Point where
  batchSize : Int
  p50 : Binary64
  p99 : Binary64
  throughput : Binary64
  deriving DecidableEq

/-- The point of a record that has all values. -/
def point? (r : Record) : Option Point := do
  some ⟨← r.batchSize, ← r.p50Ms, ← r.p99Ms, ← r.throughputMsgSec⟩

/-- The points of the usable records and the warnings of the others, in the order of their
configurations. -/
def build (records : List Record) : List Point × List LogLine :=
  needs.collect .latencyThroughput point? (Record.sortByConfiguration records)

def points (records : List Record) : List Point := (build records).1

def warnings (records : List Record) : List LogLine := (build records).2

/-- A line: batch size against a value. -/
def line (value : Point → Binary64) (points : List Point) : List (List Binary64) :=
  points.map fun p => [Binary64.ofInt p.batchSize, value p]

end SweepCharts.Lines
