import SweepCharts.Chart.Basic
import SweepCharts.Chart.Script
import SweepCharts.Json.Printer

set_option autoImplicit false

/-! # Charts as text

A chart is written as a JSON object for the drawing library, with program text released. Parts that
a chart does not have are left out.
-/

namespace SweepCharts

def Marker.name : Marker → String
  | circle => "circle"
  | triangle => "triangle"
  | rect => "rect"

def AxisSide.name : AxisSide → String
  | left => "left"
  | right => "right"

namespace Axis

def toJson (axis : Axis) : Json :=
  let kind := match axis.scale with
    | .value => "value"
    | .category _ => "category"
  let labels := match axis.scale with
    | .value => [("axisLabel", Json.object [])]
    | .category _ => []
  let data := match axis.scale with
    | .value => []
    | .category names => Json.listMember "data" (names.map .string)
  .object ([("type", .string kind), ("name", .string axis.name), ("nameLocation", .string "end"),
    ("nameTextStyle", .single "fontSize" (.float 16)), ("nameGap", .float 15)] ++
    Json.member? "position" (fun side => .string side.name) axis.side ++ labels ++
    [("splitLine", .single "show" (.bool axis.splitLines))] ++ data)

end Axis

namespace Series

/-- The program text that reads a marker's diameter from its point. -/
def sizeScript (dimension : Nat) : String :=
  "function (value) \x7b return value[" ++ toString dimension ++ "]; \x7d"

def data (points : List Point) : List (String × Json) :=
  Json.listMember "data" (points.map Json.floats)

def toJson : Series → Json
  | line name points marker color axis =>
    .object ([("type", .string "line"), ("name", .string name), ("symbol", .string marker.name),
      ("symbolSize", .float 8), ("lineStyle", .single "width" (.float 3)),
      ("itemStyle", .single "color" (.string color)),
      ("yAxisIndex", .float (Binary64.ofInt axis))] ++ data points)
  | scatter name points color =>
    .object ([("type", .string "scatter"), ("name", .string name), ("symbolSize", .float 12),
      ("itemStyle", .single "color" (.string color))] ++ data points)
  | sizedScatter name points dimension =>
    .object ([("type", .string "scatter"), ("name", .string name),
      ("symbolSize", .string (Script.enclose (sizeScript dimension)))] ++ data points)
  | labels name points =>
    .object ([("type", .string "line"), ("name", .string name), ("symbolSize", .float 0),
      ("label", .object [("show", .bool true), ("position", .string "right"),
        ("formatter", .string "\x7bb\x7d")]),
      ("lineStyle", .single "width" (.float 0))] ++
      Json.listMember "data" (points.map fun (point, text) =>
        .object [("value", .floats point), ("name", .string text)]))
  | heatmap name points =>
    .object ([("type", .string "heatmap"), ("name", .string name),
      ("label", .single "show" (.bool true))] ++ data points)

end Series

/-- The dimension is written as a signed number of 64 bits. -/
def ColorScale.toJson (s : ColorScale) : Json :=
  .object [("dimension", .int (Int.bmod s.dimension (pow2 64))),
    ("seriesIndex", .float (Binary64.ofInt s.series)),
    ("min", .float s.min), ("max", .float s.max), ("calculable", .bool true),
    ("orient", .string "vertical"), ("top", .string "center"), ("right", .string "8%"),
    ("inRange", .object (Json.listMember "color" (s.colors.map .string)))]

def Title.toJson (t : Title) : Json :=
  .object [("text", .string t.text),
    ("textStyle", .object [("fontWeight", .string "bold"), ("fontSize", .float 24)]),
    ("subtext", .string t.subtext),
    ("subtextStyle", .object [("fontSize", .float 14), ("lineHeight", .float 20)]),
    ("textAlign", .string "center"), ("left", .string "50%"), ("top", .string "1%")]

namespace Chart

/-! ## Parts that every chart has -/

def tooltip (item : Bool) : Json :=
  if item then .single "trigger" (.string "item")
  else .single "axisPointer" (.single "type" (.string "cross"))

def legend : Json :=
  .object [("type", .string "scroll"), ("show", .bool true), ("top", .string "middle"),
    ("right", .string "2%"), ("orient", .string "vertical"), ("padding", .float 10),
    ("itemGap", .float 10), ("itemWidth", .float 25), ("itemHeight", .float 14),
    ("textStyle", .single "fontSize" (.float 12)), ("selectedMode", .string "multiple")]

def toolbox : Json :=
  .single "feature" (.object [("saveAsImage", .object []), ("restore", .object []),
    ("dataView", .object []), ("dataZoom", .object [])])

/-- The place of the plot. -/
def plotArea (hasTitle : Bool) : Json :=
  .object [("left", .string "5%"), ("top", .string (if hasTitle then "12%" else "4%")),
    ("right", .string "20%"), ("bottom", .string "8%")]

def zoomSlider : Json :=
  .object [("type", .string "slider"), ("show", .bool true), ("start", .float 0),
    ("end", .float 100), ("bottom", .string "2%")]

/-- The background of dark charts and pages. -/
def darkBackground : String := "#242424"

/-! ## The whole chart -/

def toJson (c : Chart) : Json :=
  .object (Json.listMember "title" (c.title.toList.map Title.toJson) ++
    [("tooltip", tooltip c.itemTooltip), ("legend", legend), ("toolbox", toolbox),
     ("grid", .array [plotArea c.title.isSome])] ++
    Json.listMember "xAxis" (c.xAxes.map Axis.toJson) ++
    Json.listMember "yAxis" (c.yAxes.map Axis.toJson) ++
    Json.listMember "visualMap" (c.colorScales.map ColorScale.toJson) ++
    Json.listMember "dataZoom" (List.replicate c.zoomSliders zoomSlider) ++
    (if c.dark then [("backgroundColor", .string darkBackground)] else []) ++
    Json.listMember "series" (c.series.map Series.toJson))

/-- The text of a chart. -/
def text (c : Chart) : String := Script.release c.toJson.pretty

end Chart

end SweepCharts
