import SweepCharts.Number.Binary64

set_option autoImplicit false

/-! # Chart descriptions

A chart is built by adding parts: axes, series, color scales and controls. A part leaves the parts
of other sorts as they are, and parts of one sort keep the order in which they were added; so the
number of a series or an axis refers to the same one whatever is added later.
-/

namespace SweepCharts

/-- The marker of a point. -/
inductive Marker where
  | circle | triangle | rect
  deriving DecidableEq, Repr

/-- What an axis measures. -/
inductive AxisScale where
  | value
  | category (names : List String)
  deriving DecidableEq, Repr

/-- The side of the plot that a vertical axis stands on. -/
inductive AxisSide where
  | left | right
  deriving DecidableEq, Repr

structure Axis where
  name : String
  scale : AxisScale
  side : Option AxisSide
  splitLines : Bool
  deriving DecidableEq, Repr

namespace Axis

/-- An axis of numbers. -/
def value (name : String) : Axis := ⟨name, .value, none, true⟩

/-- An axis of names. -/
def category (name : String) (names : List String) : Axis := ⟨name, .category names, none, true⟩

/-- A vertical axis of numbers on the left. -/
def left (name : String) : Axis := ⟨name, .value, some .left, true⟩

/-- A vertical axis of numbers on the right. It has no split lines, so that those of the axis on the
left are the only ones. -/
def right (name : String) : Axis := ⟨name, .value, some .right, false⟩

end Axis

/-- The coordinates of a point. -/
abbrev Point := List Binary64

/-- Points that are drawn in one way. -/
inductive Series where
  /-- A line of points against a vertical axis, counted from 0. -/
  | line (name : String) (points : List Point) (marker : Marker) (color : String) (axis : Nat)
  /-- Unconnected points. -/
  | scatter (name : String) (points : List Point) (color : String)
  /-- Unconnected points whose diameter is one of their coordinates. -/
  | sizedScatter (name : String) (points : List Point) (dimension : Nat)
  /-- Texts beside invisible points. -/
  | labels (name : String) (points : List (Point × String))
  /-- Cells of column, row and value. -/
  | heatmap (name : String) (points : List Point)
  deriving DecidableEq

/-- The coordinates of the points of a series. -/
def Series.coordinates : Series → List Point
  | .line _ points _ _ _ => points
  | .scatter _ points _ => points
  | .sizedScatter _ points _ => points
  | .labels _ points => points.map Prod.fst
  | .heatmap _ points => points

/-- A scale that colors a series by one coordinate of its points. -/
structure ColorScale where
  min : Binary64
  max : Binary64
  colors : List String
  dimension : Nat
  series : Nat
  deriving DecidableEq

structure Title where
  text : String
  subtext : String
  deriving DecidableEq, Repr

structure Chart where
  /-- A chart without its title has more room for the plot. -/
  title : Option Title
  dark : Bool
  /-- Tooltips for single points instead of a crosshair. -/
  itemTooltip : Bool := false
  xAxes : List Axis := []
  yAxes : List Axis := []
  colorScales : List ColorScale := []
  /-- The number of zoom sliders. -/
  zoomSliders : Nat := 0
  series : List Series := []
  deriving DecidableEq

/-- What can be added to a chart. -/
inductive ChartPart where
  /-- A slider below the plot. -/
  | zoomSlider
  /-- Tooltips for single points. -/
  | itemTooltip
  | xAxis (axis : Axis)
  | yAxis (axis : Axis)
  /-- Vertical axes of numbers on both sides. -/
  | dualYAxis (left right : String)
  | series (series : Series)
  | colorScale (scale : ColorScale)
  deriving DecidableEq

namespace Chart

/-- A chart without axes and series. -/
def new (title subtext : String) (dark stripTitle : Bool) : Chart where
  title := if stripTitle then none else some ⟨title, subtext⟩
  dark

/-- The chart with one more part. -/
def add (c : Chart) : ChartPart → Chart
  | .zoomSlider => { c with zoomSliders := c.zoomSliders + 1 }
  | .itemTooltip => { c with itemTooltip := true }
  | .xAxis axis => { c with xAxes := c.xAxes ++ [axis] }
  | .yAxis axis => { c with yAxes := c.yAxes ++ [axis] }
  | .dualYAxis left right => { c with yAxes := c.yAxes ++ [Axis.left left, Axis.right right] }
  | .series series => { c with series := c.series ++ [series] }
  | .colorScale scale => { c with colorScales := c.colorScales ++ [scale] }

/-- The chart with more parts, in their order. -/
def build (c : Chart) (parts : List ChartPart) : Chart := parts.foldl add c

end Chart

end SweepCharts
