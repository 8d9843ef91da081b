import SweepCharts.Json.Printer
import SweepCharts.Json.Reader

set_option autoImplicit false

/-! # Kinds of charts

A kind has a name for readers, and one for file names and data. In JSON it is written as the latter;
it may also be given as an object with that one name and no value.
-/

namespace SweepCharts

inductive ChartKind where
  | latencyThroughput
  | throughputVsLatency
  | backpressureHeatmap
  | sliceSweep
  deriving DecidableEq, Repr

namespace ChartKind

def all : List ChartKind :=
  [latencyThroughput, throughputVsLatency, backpressureHeatmap, sliceSweep]

/-- The name shown to readers. -/
def display : ChartKind → String
  | latencyThroughput => "Latency & Throughput by Batch Size"
  | throughputVsLatency => "Latency vs Throughput"
  | backpressureHeatmap => "Server Backpressure Heatmap"
  | sliceSweep => "Slice Sweep"

/-- The name in file names and data. -/
def stem : ChartKind → String
  | latencyThroughput => "latency_throughput"
  | throughputVsLatency => "throughput_vs_latency"
  | backpressureHeatmap => "backpressure_heatmap"
  | sliceSweep => "slice_sweep"

/-- What the title adds to the name. -/
def detail : ChartKind → String
  | latencyThroughput => ""
  | throughputVsLatency => " (size = batch, color = server backpressure)"
  | backpressureHeatmap => " (lower is better)"
  | sliceSweep => ": Throughput, GC, p99 Delay vs Slice Size"

def title (kind : ChartKind) : String := kind.display ++ kind.detail

def ofStem? (stem : String) : Option ChartKind := all.find? fun kind => kind.stem = stem

/-! ## JSON -/

def toJson (kind : ChartKind) : Json := .string kind.stem

def ofJson? : Json → Option ChartKind
  | .string stem => ofStem? stem
  | .object [(stem, .null)] => ofStem? stem
  | _ => none

/-- The kind that a JSON text holds. -/
def readJson? (source : String) : Option ChartKind := (Json.read? source).bind ofJson?

end ChartKind

end SweepCharts
