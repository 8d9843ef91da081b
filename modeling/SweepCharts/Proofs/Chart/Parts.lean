import SweepCharts.Chart.Text

set_option autoImplicit false

/-! # Parts in another order

A part is of one sort, and adding it changes what a chart has of that sort and nothing else. So a
chart does not depend on how parts of different sorts were mixed, and what has a number in a chart
keeps it when more is added.

* `Chart.Has.add`: what a chart has after one part more (`Chart.Has.build`: after several).
* `Chart.Has.eq`: charts that have the same sort by sort are equal.
* `Chart.parts_commute_across_sorts`: the statement for charts that are built from nothing.
-/

namespace SweepCharts

/-! ## Sorts of parts -/

/-- What a part is added to. -/
inductive PartSort where
  | series | xAxis | yAxis | zoomSlider | colorScale | itemTooltip
  deriving DecidableEq, Repr

namespace ChartPart

def sort : ChartPart → PartSort
  | zoomSlider => .zoomSlider
  | itemTooltip => .itemTooltip
  | xAxis _ => .xAxis
  | yAxis _ => .yAxis
  | dualYAxis _ _ => .yAxis
  | series _ => .series
  | colorScale _ => .colorScale

/-- The parts of one sort, in their order. -/
def ofSort (sort : PartSort) (parts : List ChartPart) : List ChartPart :=
  parts.filter fun p => p.sort = sort

theorem ofSort_append (sort : PartSort) (parts more : List ChartPart) :
    ofSort sort (parts ++ more) = ofSort sort parts ++ ofSort sort more := List.filter_append ..

def drawn : ChartPart → List Series
  | series s => [s]
  | _ => []

def horizontal : ChartPart → List Axis
  | xAxis axis => [axis]
  | _ => []

/-- The vertical axes of a part, the one on the left first. -/
def vertical : ChartPart → List Axis
  | yAxis axis => [axis]
  | dualYAxis left right => [Axis.left left, Axis.right right]
  | _ => []

def scales : ChartPart → List ColorScale
  | colorScale scale => [scale]
  | _ => []

/-- The parts of each sort are the same in the same order. Tooltips for single points are asked for
by both or by none, however often. -/
structure SameBySort (parts more : List ChartPart) : Prop where
  ordered : ∀ sort, sort ≠ .itemTooltip → ofSort sort parts = ofSort sort more
  itemTooltip : itemTooltip ∈ parts ↔ itemTooltip ∈ more

end ChartPart

namespace Chart

open ChartPart

/-! ## What a chart has -/

/-- The chart has a title and a background, and all that its parts add, each sort in the order of
adding. -/
structure Has (c : Chart) (title : Option Title) (dark : Bool) (parts : List ChartPart) :
    Prop where
  title : c.title = title
  dark : c.dark = dark
  itemTooltip : c.itemTooltip = true ↔ ChartPart.itemTooltip ∈ parts
  xAxes : c.xAxes = (ofSort .xAxis parts).flatMap horizontal
  yAxes : c.yAxes = (ofSort .yAxis parts).flatMap vertical
  colorScales : c.colorScales = (ofSort .colorScale parts).flatMap scales
  zoomSliders : c.zoomSliders = (ofSort .zoomSlider parts).length
  series : c.series = (ofSort .series parts).flatMap drawn

theorem has_new (title subtext : String) (dark stripTitle : Bool) :
    (new title subtext dark stripTitle).Has
      (if stripTitle then none else some ⟨title, subtext⟩) dark [] :=
  ⟨rfl, rfl, by simp [new], rfl, rfl, rfl, rfl, rfl⟩

variable {c other : Chart} {title : Option Title} {dark : Bool} {parts more : List ChartPart}

/-- **One part more** comes last among those of its sort, and leaves the other sorts as they are. -/
theorem Has.add (h : c.Has title dark parts) (p : ChartPart) :
    (c.add p).Has title dark (parts ++ [p]) := by
  obtain ⟨htitle, hdark, htooltip, hx, hy, hscales, hzoom, hseries⟩ := h
  cases p <;> constructor <;>
    simp [Chart.add, ofSort, ChartPart.sort, drawn, horizontal, vertical, scales, *]

/-- **All parts** are added one after the other. -/
theorem Has.build (h : c.Has title dark parts) (more : List ChartPart) :
    (c.build more).Has title dark (parts ++ more) := by
  induction more generalizing c parts with
  | nil =>
    rw [List.append_nil]
    exact h
  | cons p rest ih =>
    have hnext := ih (h.add p)
    rw [List.append_assoc] at hnext
    exact hnext

/-- Charts that have the same are equal. -/
theorem Has.eq (h : c.Has title dark parts) (hother : other.Has title dark more)
    (hsame : SameBySort parts more) : c = other := by
  have htooltip : c.itemTooltip = other.itemTooltip := by
    rw [Bool.eq_iff_iff, h.itemTooltip, hother.itemTooltip, hsame.itemTooltip]
  have hx : c.xAxes = other.xAxes := by
    rw [h.xAxes, hother.xAxes, hsame.ordered .xAxis (by simp)]
  have hy : c.yAxes = other.yAxes := by
    rw [h.yAxes, hother.yAxes, hsame.ordered .yAxis (by simp)]
  have hscales : c.colorScales = other.colorScales := by
    rw [h.colorScales, hother.colorScales, hsame.ordered .colorScale (by simp)]
  have hzoom : c.zoomSliders = other.zoomSliders := by
    rw [h.zoomSliders, hother.zoomSliders, hsame.ordered .zoomSlider (by simp)]
  have hseries : c.series = other.series := by
    rw [h.series, hother.series, hsame.ordered .series (by simp)]
  have htitle : c.title = other.title := h.title.trans hother.title.symm
  have hdark : c.dark = other.dark := h.dark.trans hother.dark.symm
  cases c
  cases other
  simp_all

/-! ## Numbers of series and axes -/

/-- The series that a color scale is for. -/
def colored? (c : Chart) (scale : ColorScale) : Option Series := c.series[scale.series]?

/-- The vertical axis that a line is drawn against. -/
def against? (c : Chart) : Series → Option Axis
  | .line _ _ _ _ axis => c.yAxes[axis]?
  | _ => none

/-- What was added stays in its place. -/
theorem Has.prefix_build (h : c.Has title dark parts) (more : List ChartPart) :
    c.series <+: (c.build more).series ∧ c.yAxes <+: (c.build more).yAxes := by
  have hbuild := h.build more
  rw [h.series, h.yAxes, hbuild.series, hbuild.yAxes, ofSort_append, ofSort_append,
    List.flatMap_append, List.flatMap_append]
  exact ⟨List.prefix_append _ _, List.prefix_append _ _⟩

/-- What a color scale or a line refers to does not change when more is added. -/
theorem Has.refers_build (h : c.Has title dark parts) (more : List ChartPart) :
    (∀ scale s, c.colored? scale = some s → (c.build more).colored? scale = some s) ∧
      ∀ line axis, c.against? line = some axis → (c.build more).against? line = some axis := by
  obtain ⟨⟨laterSeries, hseries⟩, ⟨laterAxes, haxes⟩⟩ := h.prefix_build more
  constructor
  · intro scale s hs
    have hlt : scale.series < c.series.length := (List.getElem?_eq_some_iff.1 hs).1
    rw [colored?, ← hseries, List.getElem?_append_left hlt]
    exact hs
  · intro line axis ha
    cases line with
    | line name points marker color n =>
      have hlt : n < c.yAxes.length := (List.getElem?_eq_some_iff.1 ha).1
      rw [against?, ← haxes, List.getElem?_append_left hlt]
      exact ha
    | _ => cases ha

/-! ## The whole chart -/

/-- **Parts of different sorts commute.** Parts that are the same sort by sort give the same chart
and the same text. The chart has the parts of each sort in the order of adding; so what a color
scale or a line refers to by its number, once it is there, is what it refers to in the end. -/
theorem parts_commute_across_sorts (title subtext : String) (dark stripTitle : Bool)
    {parts more : List ChartPart} (h : SameBySort parts more) :
    let c := new title subtext dark stripTitle
    c.build parts = c.build more ∧ (c.build parts).text = (c.build more).text ∧
      (c.build parts).Has (if stripTitle then none else some ⟨title, subtext⟩) dark parts ∧
      ∀ first rest, parts = first ++ rest →
        (∀ scale s, (c.build first).colored? scale = some s →
          (c.build parts).colored? scale = some s ∧ (c.build more).colored? scale = some s) ∧
        ∀ line axis, (c.build first).against? line = some axis →
          (c.build parts).against? line = some axis ∧ (c.build more).against? line = some axis := by
  intro c
  have hnew := has_new title subtext dark stripTitle
  have hparts : (c.build parts).Has _ dark parts := hnew.build parts
  have hmore : (c.build more).Has _ dark more := hnew.build more
  have heq : c.build parts = c.build more := hparts.eq hmore h
  refine ⟨heq, congrArg text heq, hparts, fun first rest hsplit => ?_⟩
  have hrefers := (hnew.build first).refers_build rest
  have hbuild : (c.build first).build rest = c.build parts := by
    rw [hsplit]
    exact List.foldl_append.symm
  rw [← heq, ← hbuild]
  exact ⟨fun scale s hs => ⟨hrefers.1 scale s hs, hrefers.1 scale s hs⟩,
    fun line axis ha => ⟨hrefers.2 line axis ha, hrefers.2 line axis ha⟩⟩

/-- The color scale, the axes and the slider of a chart may come before its series, and tooltips may
be asked for twice. -/
theorem parts_commute_across_sorts_scale_first :
    let line : ChartPart := .series (.line "p50" [[1, 2]] .circle "#1f77b4" 1)
    let cells : ChartPart := .series (.heatmap "Events" [[0, 0, 5]])
    let scale : ColorScale := ⟨0, 5, ["#000004"], 2, 1⟩
    let parts : List ChartPart :=
      [.itemTooltip, line, .xAxis (.value "Batch Size"), cells, .dualYAxis "ms" "msg/s",
        .zoomSlider, .colorScale scale]
    let more : List ChartPart :=
      [.colorScale scale, .zoomSlider, .dualYAxis "ms" "msg/s", .itemTooltip,
        .xAxis (.value "Batch Size"), line, .itemTooltip, cells]
    let c := new "Sweep" "" true false
    SameBySort parts more ∧ (c.build parts).text = (c.build more).text := by
  intro line cells scale parts more c
  have hsame : SameBySort parts more := by
    refine ⟨fun sort hsort => ?_, by simp [parts, more]⟩
    cases sort with
    | itemTooltip => exact absurd rfl hsort
    | _ => rfl
  exact ⟨hsame, (parts_commute_across_sorts "Sweep" "" true false hsame).2.1⟩

end Chart

end SweepCharts
