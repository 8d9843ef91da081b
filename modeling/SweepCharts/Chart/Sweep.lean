import SweepCharts.Chart.Colormap
import SweepCharts.Chart.Text
import SweepCharts.Sweep.Grid
import SweepCharts.Sweep.Lines
import SweepCharts.Sweep.Scatter
import SweepCharts.Sweep.SummaryText

set_option autoImplicit false

/-! # Charts of a sweep

Lines and scatter are drawn for every sweep, the heatmap only for one that varies the flush
interval. Each chart comes with the warnings for the records that it skips.
-/

namespace SweepCharts

/-- A chart of a kind, with the title of the kind and a subtext. -/
def ChartKind.chart (kind : ChartKind) (subtext : String) (dark : Bool) : Chart :=
  .new kind.title subtext dark false

/-- The lines of latency (left axis) and throughput (right axis). -/
def Lines.chart (records : List Record) (dark : Bool) : Chart :=
  let points := Lines.points records
  (ChartKind.latencyThroughput.chart (Summary.ofRecords records).subtext dark).build
    [.zoomSlider, .xAxis (.value "Batch Size"),
     .dualYAxis "Latency [ms]" "Throughput [msg/s]",
     .series (.line "p50" (line Point.p50 points) .circle "#1f77b4" 0),
     .series (.line "p99" (line Point.p99 points) .triangle "#ff7f0e" 0),
     .series (.line "Throughput" (line Point.throughput points) .rect "#2ca02c" 1)]

namespace Scatter

/-- A marker: its place, the value that colors it, and its diameter. -/
def marker (p : Point) : SweepCharts.Point :=
  [p.throughput, p.p99, Binary64.ofInt p.backpressure, p.symbolSize]

/-- The scale from the least to the largest backpressure, at least one event wide. -/
def colorScale (points : List Point) : ColorScale :=
  let values := points.map Point.backpressure
  let least := Binary64.ofInt (values.min?.getD 0)
  let largest := Binary64.ofInt (values.max?.getD 0)
  { min := least, max := Binary64.larger largest (least + 1 : Float),
    colors := Colormap.viridis.hexStops, dimension := 2, series := 0 }

def chart (records : List Record) (dark : Bool) : Chart :=
  let points := Scatter.points records
  (ChartKind.throughputVsLatency.chart (Summary.ofRecords records).subtext dark).build
    [.itemTooltip, .xAxis (.value "Throughput [msg/s]"), .yAxis (.left "p99 Latency [ms]"),
     .series (.sizedScatter "Server Backpressure Events" (points.map marker) 3),
     .series (.labels "Configuration" (points.map fun p => ([p.throughput, p.p99], p.label))),
     .colorScale (colorScale points)]

end Scatter

namespace Grid

/-- The scale from 0 to the largest cell, at least one event wide. -/
def colorScale (g : Grid) : ColorScale where
  min := 0
  max := Binary64.ofInt (max g.maxValue 1)
  colors := Colormap.magma.hexStops
  dimension := 2
  series := 0

/-- The values of an axis as names. -/
def names (values : List Int) : List String := values.map fun n => toString n

/-- The heatmap of a grid. -/
def heatmap (g : Grid) (subtext : String) (dark : Bool) : Chart :=
  (ChartKind.backpressureHeatmap.chart subtext dark).build
    [.itemTooltip, .xAxis (.category "Batch Size" (names g.batchSizes)),
     .yAxis (.category "Flush Interval [ms]" (names g.flushIntervals)),
     .series (.heatmap "Backpressure Events" g.points), .colorScale g.colorScale]

/-- The heatmap of a sweep, if it varies enough. -/
def chart? (records : List Record) (dark : Bool) : Option Chart :=
  (build? records).map fun g => g.heatmap (Summary.ofRecords records).subtext dark

/-- The warning for a sweep without a heatmap. -/
def absenceWarning : LogLine :=
  .warn ("Skipping " ++ ChartKind.backpressureHeatmap.display ++ ": needs at least " ++
    toString minBatchSizes ++ " batch size and " ++ toString minFlushIntervals ++
    " distinct flush intervals")

end Grid

/-- A chart under its kind. -/
structure NamedChart where
  kind : ChartKind
  chart : Chart
  deriving DecidableEq

namespace NamedChart

/-- The charts that apply to a sweep. -/
def ofRecords (records : List Record) (dark : Bool) : List NamedChart :=
  [⟨.latencyThroughput, Lines.chart records dark⟩,
   ⟨.throughputVsLatency, Scatter.chart records dark⟩] ++
    ((Grid.chart? records dark).map (NamedChart.mk .backpressureHeatmap)).toList

/-- The warnings of the charts of a sweep. -/
def warnings (records : List Record) : List LogLine :=
  Lines.warnings records ++ Scatter.warnings records ++ Grid.warnings records ++
    if (Grid.build? records).isNone then [Grid.absenceWarning] else []

end NamedChart

end SweepCharts
