import SweepCharts.Chart.KindJson
import SweepCharts.Chart.Text
import SweepCharts.Slice.Row

set_option autoImplicit false

/-! # The chart of a slice sweep

Throughput (left axis) and collection time (right axis) against slice size for both kinds of server,
with the delays as points on the left axis.
-/

namespace SweepCharts.SliceRow

/-- Slice size against a value. -/
def points (value : SliceRow → Binary64) (rows : List SliceRow) : List Point :=
  rows.map fun row => [row.sliceSize, value row]

def subtext (ts native : List SliceRow) : String :=
  toString ts.length ++ " TS Server Runs  •  " ++ toString native.length ++
    " Native Server Runs"

def chart (rows : List SliceRow) (dark : Bool) : Chart :=
  let ts := ofMode tsServer rows
  let native := ofMode nativeServer rows
  (Chart.new ChartKind.sliceSweep.title (subtext ts native) dark false).build
    [.xAxis (.value "Slice Size"), .dualYAxis "Throughput [msg/s]" "GC Time [ms]",
     .series (.line "TS Throughput" (points throughput ts) .circle "#0000ff" 0),
     .series (.line "Native Throughput" (points throughput native) .rect "#008000" 0),
     .series (.line "TS GC ms" (points gc ts) .circle "#ff0000" 1),
     .series (.line "Native GC ms" (points gc native) .rect "#ffa500" 1),
     .series (.scatter "TS p99 Delay" (points p99Delay ts) "#800080"),
     .series (.scatter "Native p99 Delay" (points p99Delay native) "#ff00ff")]

end SweepCharts.SliceRow
