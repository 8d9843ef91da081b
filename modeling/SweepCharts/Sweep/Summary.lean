import SweepCharts.Json.Printer
import SweepCharts.Sweep.Axis
import SweepCharts.Sweep.Record

set_option autoImplicit false

/-! # Summary of a sweep

What was varied, how much was sent, and the configurations with the best throughput and the lowest
latency. Of several best configurations the first one is named.
-/

namespace SweepCharts

/-- A configuration, and the value for which it is named. -/
structure Highlight where
  batchSize : Int
  flushInterval : Int
  value : Binary64
  deriving DecidableEq

structure Summary where
  records : Nat
  batchSizes : List Int
  flushIntervals : List Int
  payloadBytes : List Int
  received : Nat
  dropped : Nat
  clientBackpressure : Nat
  serverBackpressure : Nat
  bestThroughput : Option Highlight
  lowestP99 : Option Highlight
  deriving DecidableEq

namespace Highlight

/-- A record with a batch size and a value. -/
def ofRecord? (value : Record → Option Binary64) (r : Record) : Option Highlight := do
  some ⟨← r.batchSize, r.flushInterval, ← value r⟩

/-- The best of what was seen so far and one more; a draw keeps the former. -/
def pick (better : Binary64 → Binary64 → Bool) (best : Option Highlight) (next : Highlight) :
    Option Highlight :=
  match best with
  | some current => if better next.value current.value then some next else some current
  | none => some next

/-- The first best configuration among the records that have a batch size and a value. -/
def best? (better : Binary64 → Binary64 → Bool) (value : Record → Option Binary64)
    (records : List Record) : Option Highlight :=
  (records.filterMap (ofRecord? value)).foldl (pick better) none

def toJson (h : Highlight) : Json :=
  .object [("batch_size", .int h.batchSize), ("flush_interval_ms", .int h.flushInterval),
    ("value", .float h.value)]

end Highlight

namespace Summary

/-- The sum of a column over all records, as a count of 64 bits; negative cells count as 0. A sum
that does not fit wraps around, as it does in a release build; a debug build panics there. -/
def total (value : Record → Option Int) (records : List Record) : Nat :=
  (records.filterMap value).foldl (fun sum n => (sum + n.toNat) % pow2 64) 0

def ofRecords (records : List Record) : Summary where
  records := records.length
  batchSizes := distinct (records.filterMap Record.batchSize)
  flushIntervals := distinct (records.map Record.flushInterval)
  payloadBytes := distinct (records.filterMap Record.payloadBytes)
  received := total Record.received records
  dropped := total Record.dropped records
  clientBackpressure := total (fun r => r.client.backpressure) records
  serverBackpressure := total (fun r => r.server.backpressure) records
  bestThroughput := Highlight.best? (fun a b => b.below a) Record.throughputMsgSec records
  lowestP99 := Highlight.best? (fun a b => a.below b) Record.p99Ms records

def toJson (s : Summary) : Json :=
  let ints (ns : List Int) : Json := .array (ns.map .int)
  let highlight (h : Option Highlight) : Json := (h.map Highlight.toJson).getD .null
  .object [("records", .int s.records), ("batch_sizes", ints s.batchSizes),
    ("flush_intervals", ints s.flushIntervals), ("payload_bytes", ints s.payloadBytes),
    ("total_received", .int s.received), ("total_dropped", .int s.dropped),
    ("total_client_backpressure", .int s.clientBackpressure),
    ("total_server_backpressure", .int s.serverBackpressure),
    ("best_throughput", highlight s.bestThroughput), ("lowest_p99", highlight s.lowestP99)]

end Summary

end SweepCharts
