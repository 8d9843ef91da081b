import SweepCharts.Chart.Sweep
import SweepCharts.Proofs.Number.Nearest
import SweepCharts.Proofs.Number.Order
import SweepCharts.Proofs.Sweep.Survey

set_option autoImplicit false

/-! # What the color scales cover

The markers of the scatter and the cells of the heatmap are colored by a count of backpressure. The
scale of the scatter reaches from the least count to the largest. The scale of the heatmap starts at
0 whatever its cells hold, so it covers them as long as no count is negative.

* `atMost_ofInt`: counts keep their order as doubles.
* `Scatter.covers_colorScale`: the scale of the scatter covers any list of points.
* `Grid.mem_cells_iff`: the cells of a heatmap are the counts of the last records, or 0.
* `Grid.covers_colorScale_iff`: when the scale of a heatmap covers it.
* `color_scales_cover`: the color scales of both charts.
-/

namespace SweepCharts

/-! ## Charts with a color scale -/

/-- The chart has one color scale, which is for its first series. The third coordinates of the
points of this series are `values`. -/
structure Chart.ColoredBy (c : Chart) (scale : ColorScale) (values : List Binary64) : Prop where
  colorScales : c.colorScales = [scale]
  dimension : scale.dimension = 2
  series : scale.series = 0
  values : (c.series[0]?).map (fun s => s.coordinates.map (·[2]?)) = some (values.map some)

/-- A chart is colored in one way. -/
theorem Chart.ColoredBy.unique {c : Chart} {scale other : ColorScale} {values more : List Binary64}
    (h : c.ColoredBy scale values) (hother : c.ColoredBy other more) :
    scale = other ∧ values = more := by
  have hscale := h.colorScales.symm.trans hother.colorScales
  have hvalues := Option.some.inj (h.values.symm.trans hother.values)
  exact ⟨(List.cons.inj hscale).1, List.map_injective_iff.2 (Option.some_injective _) hvalues⟩

/-- The scale has a range, and the values lie in it. -/
def ColorScale.Covers (scale : ColorScale) (values : List Binary64) : Prop :=
  scale.min.AtMost scale.max ∧ ∀ x ∈ values, scale.min.AtMost x ∧ x.AtMost scale.max

theorem atMost_ofInt {m n : Int} (h : m ≤ n) : (Binary64.ofInt m).AtMost (.ofInt n) :=
  ⟨Binary64.isNaN_ofInt m, Binary64.isNaN_ofInt n, Binary64.scaled_ofInt_mono h⟩

/-- Not below zero, as an integer and as a double. -/
theorem atMost_zero_ofInt {n : Int} : (0 : Binary64).AtMost (.ofInt n) ↔ 0 ≤ n := by
  have hzero : (0 : Binary64).isNaN = false ∧ (0 : Binary64).scaled = 0 := by decide +kernel
  rw [Binary64.AtMost, hzero.1, hzero.2, Binary64.isNaN_ofInt, ← Int.not_lt,
    Binary64.scaled_ofInt_neg_iff, Int.not_lt]
  simp

/-! ## The scatter -/

namespace Scatter

theorem coloredBy_chart (records : List Record) (dark : Bool) :
    (chart records dark).ColoredBy (colorScale (points records))
      ((points records).map fun p => .ofInt p.backpressure) where
  colorScales := rfl
  dimension := rfl
  series := rfl
  values := by
    show some (((points records).map marker).map (·[2]?)) = _
    rw [List.map_map, List.map_map]
    rfl

/-- The least and the largest of some numbers, 0 for none. -/
theorem min?_max?_bounds (values : List Int) :
    values.min?.getD 0 ≤ values.max?.getD 0 ∧
      ∀ n ∈ values, values.min?.getD 0 ≤ n ∧ n ≤ values.max?.getD 0 := by
  cases hmin : values.min? with
  | none =>
    obtain rfl := List.min?_eq_none_iff.1 hmin
    exact ⟨Int.le_refl _, List.forall_mem_nil _⟩
  | some least =>
    have hne : values ≠ [] := by
      rintro rfl
      cases hmin
    obtain ⟨largest, hmax⟩ := Option.ne_none_iff_exists'.1 (mt List.max?_eq_none_iff.1 hne)
    obtain ⟨hmem, hlow⟩ := List.min?_eq_some_iff.1 hmin
    obtain ⟨-, hhigh⟩ := List.max?_eq_some_iff.1 hmax
    rw [hmax]
    exact ⟨hhigh least hmem, fun n hn => ⟨hlow n hn, hhigh n hn⟩⟩

/-- **The scale of the scatter** covers its markers. -/
theorem covers_colorScale (points : List Point) :
    (colorScale points).Covers (points.map fun p => .ofInt p.backpressure) := by
  obtain ⟨hrange, hbounds⟩ := min?_max?_bounds (points.map Point.backpressure)
  -- the scale may reach one event further, however the sum is rounded
  have htop : (Binary64.ofInt ((points.map Point.backpressure).max?.getD 0)).AtMost
      (colorScale points).max := Binary64.atMost_larger (Binary64.isNaN_ofInt _) _
  refine ⟨(atMost_ofInt hrange).trans htop, List.forall_mem_map.2 fun p hp => ?_⟩
  obtain ⟨hlow, hhigh⟩ := hbounds p.backpressure (List.mem_map_of_mem hp)
  exact ⟨atMost_ofInt hlow, (atMost_ofInt hhigh).trans htop⟩

end Scatter

/-! ## The heatmap -/

namespace Grid

theorem map_zipIdx_fst {α β : Type} (f : α → β) (xs : List α) :
    xs.zipIdx.map (fun e => f e.1) = xs.map f :=
  calc xs.zipIdx.map (fun e => f e.1)
      = (xs.zipIdx.map Prod.fst).map f := List.map_map.symm
    _ = xs.map f := by rw [List.zipIdx_map_fst]

/-- The values of the points are those of the cells, row by row. -/
theorem map_points (g : Grid) :
    g.points.map (·[2]?) = (g.cells.flatten.map Binary64.ofInt).map some :=
  calc g.points.map (·[2]?)
      = (g.cells.zipIdx.map fun e => e.1.map fun n => some (Binary64.ofInt n)).flatten := by
        rw [points, List.map_flatMap, List.flatMap_def]
        refine congrArg List.flatten (List.map_congr_left fun e _ => ?_)
        rw [List.map_map]
        exact map_zipIdx_fst (fun n => some (Binary64.ofInt n)) e.1
    _ = (g.cells.map (List.map fun n => some (Binary64.ofInt n))).flatten := by
        rw [map_zipIdx_fst (List.map fun n => some (Binary64.ofInt n))]
    _ = (g.cells.flatten.map Binary64.ofInt).map some := by
        rw [List.map_map, List.map_flatten]
        rfl

theorem coloredBy_heatmap (g : Grid) (subtext : String) (dark : Bool) :
    (g.heatmap subtext dark).ColoredBy g.colorScale (g.cells.flatten.map .ofInt) where
  colorScales := rfl
  dimension := rfl
  series := rfl
  values := congrArg some g.map_points

/-- A heatmap is never above its scale, and the scale has a range. -/
theorem atMost_max (g : Grid) : g.colorScale.min.AtMost g.colorScale.max ∧
    ∀ x ∈ g.cells.flatten.map Binary64.ofInt, x.AtMost g.colorScale.max := by
  refine ⟨atMost_zero_ofInt.2 (by omega), List.forall_mem_map.2 fun n hn => atMost_ofInt ?_⟩
  have hle := g.le_maxValue n hn
  omega

/-- **The scale of a heatmap covers it** as long as no cell is negative. -/
theorem covers_colorScale_iff {g : Grid} :
    g.colorScale.Covers (g.cells.flatten.map .ofInt) ↔ ∀ n ∈ g.cells.flatten, 0 ≤ n := by
  obtain ⟨hrange, htop⟩ := g.atMost_max
  constructor
  · intro h n hn
    exact atMost_zero_ofInt.1 (h.2 _ (List.mem_map_of_mem hn)).1
  · intro h
    refine ⟨hrange, List.forall_mem_map.2 fun n hn => ⟨atMost_zero_ofInt.2 (h n hn), ?_⟩⟩
    exact htop _ (List.mem_map_of_mem hn)

section
variable {records : List Record} {g : Grid} (h : build? records = some g)
include h

/-- A cell stands for a flush interval and a batch size that usable records have. -/
theorem mem_cells_iff {n : Int} : n ∈ g.cells.flatten ↔
    ∃ flush batch, (∃ r ∈ records.filter fun r => Usable r, r.flushInterval = flush) ∧
      (∃ r ∈ records.filter fun r => Usable r, r.batchSize = some batch) ∧
      lastBackpressure (records.filter fun r => Usable r) flush batch = n := by
  have hs := Survey.describes_ofRecords records
  unfold build? Survey.grid? at h
  split at h
  · cases h
  · obtain rfl := Option.some.inj h
    dsimp only
    rw [Survey.cells_eq hs, List.mem_flatten]
    constructor
    · rintro ⟨row, hrow, hn⟩
      obtain ⟨flush, hflush, rfl⟩ := List.mem_map.1 hrow
      obtain ⟨batch, hbatch, rfl⟩ := List.mem_map.1 hn
      exact ⟨flush, batch, (hs.flushIntervals _).1 hflush, (hs.batchSizes _).1 hbatch, rfl⟩
    · rintro ⟨flush, batch, hflush, hbatch, rfl⟩
      exact ⟨_, List.mem_map_of_mem ((hs.flushIntervals _).2 hflush),
        List.mem_map_of_mem ((hs.batchSizes _).2 hbatch)⟩

/-- A negative cell is the count of a last record. -/
theorem forall_cells_nonneg_iff : (∀ n ∈ g.cells.flatten, 0 ≤ n) ↔ ∀ flush batch,
    ∀ r ∈ last? (records.filter fun r => Usable r) flush batch, 0 ≤ r.serverBackpressure := by
  constructor
  · intro hcells flush batch r hr
    obtain ⟨hmem, hat⟩ := List.mem_filter.1 (List.mem_of_getLast? hr)
    obtain ⟨hflush, hbatch⟩ := of_decide_eq_true hat
    have hcell := hcells _ ((mem_cells_iff h).2
      ⟨flush, batch, ⟨r, hmem, hflush⟩, ⟨r, hmem, hbatch⟩, rfl⟩)
    rw [lastBackpressure, hr] at hcell
    exact hcell
  · intro hlast n hn
    obtain ⟨flush, batch, -, -, rfl⟩ := (mem_cells_iff h).1 hn
    unfold lastBackpressure
    cases hr : last? (records.filter fun r => Usable r) flush batch with
    | none => exact Int.le_refl 0
    | some r => exact hlast flush batch r hr

end

end Grid

/-- **The color scales.** The scale of the scatter covers its markers, for all records. The scale of
the heatmap, if there is one, has a range that no cell is above; but it covers the cells exactly if
the last usable record of each configuration has no negative count of backpressure. -/
theorem color_scales_cover (records : List Record) (dark : Bool) :
    (∃ scale values, (Scatter.chart records dark).ColoredBy scale values ∧ scale.Covers values) ∧
      ∀ c ∈ Grid.chart? records dark, ∃ scale values, c.ColoredBy scale values ∧
        scale.min.AtMost scale.max ∧ (∀ x ∈ values, x.AtMost scale.max) ∧
        (scale.Covers values ↔ ∀ flush batch,
          ∀ r ∈ Grid.last? (records.filter fun r => Grid.Usable r) flush batch,
            0 ≤ r.serverBackpressure) := by
  refine ⟨⟨_, _, Scatter.coloredBy_chart records dark, Scatter.covers_colorScale _⟩, fun c hc => ?_⟩
  obtain ⟨g, hg, rfl⟩ := Option.map_eq_some_iff.1 hc
  obtain ⟨hrange, htop⟩ := g.atMost_max
  refine ⟨_, _, g.coloredBy_heatmap _ dark, hrange, htop, ?_⟩
  rw [Grid.covers_colorScale_iff, Grid.forall_cells_nonneg_iff hg]

/-- A heatmap with a negative count, which lies below the scale. -/
theorem negative_cell_not_covered :
    let records : List Record :=
      [{ origin := ⟨"in.csv", 2⟩, batchSize := some 1, flushIntervalMs := some 5,
         server := { backpressure := some (-5) } },
       { origin := ⟨"in.csv", 3⟩, batchSize := some 1, flushIntervalMs := some 10,
         server := { backpressure := some 3 } }]
    ¬ ∀ c ∈ Grid.chart? records false, ∃ scale values,
      c.ColoredBy scale values ∧ scale.Covers values := by
  intro records h
  have hgrid : Grid.build? records = some ⟨[1], [5, 10], [[-5], [3]]⟩ := by decide +kernel
  obtain ⟨scale, values, hcolored, hcovers⟩ :=
    h _ (congrArg (Option.map fun g => g.heatmap (Summary.ofRecords records).subtext false) hgrid)
  obtain ⟨rfl, rfl⟩ := hcolored.unique (Grid.coloredBy_heatmap _ _ _)
  exact absurd (Grid.covers_colorScale_iff.1 hcovers (-5) (by decide)) (by decide)

end SweepCharts
