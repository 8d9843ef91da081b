import SweepCharts.Chart.Sweep
import SweepCharts.Proofs.Sweep.Order
import SweepCharts.Proofs.Sweep.Survey

set_option autoImplicit false

/-! # Charts depend on the columns they read

Two records that agree on the columns of a chart are alike for it: both can be used or neither, they
have one configuration, and they give the same point. So two sweeps that agree position by position
have the same charts, wherever their records come from and whatever else is in them.

* `meets_congr`: the check of a record.
* `points_congr`, `build?_congr`: the data of the charts.
* `subtext_congr`: the text below the titles, which reads three columns more.
* `charts_depend_on_columns_read`: all charts of a sweep.
-/

namespace SweepCharts

/-! ## Records that agree -/

/-- The same values in these columns, and the same of these columns among the invalid cells. -/
def AgreeOn (columns : List Column) (r s : Record) : Prop :=
  ∀ c ∈ columns, r.value? c = s.value? c ∧
    r.invalid.contains c.name = s.invalid.contains c.name

theorem AgreeOn.mono {columns more : List Column} {r s : Record} (h : AgreeOn more r s)
    (hsub : columns ⊆ more) : AgreeOn columns r s := fun c hc => h c (hsub hc)

section
variable {columns : List Column} {r s : Record} (h : AgreeOn columns r s)
include h

theorem AgreeOn.int (c : Column) (hc : c ∈ columns) {value : Record → Option Int}
    (hvalue : ∀ r : Record, r.value? c = (value r).map .int) : value r = value s := by
  have heq := (h c hc).1
  rw [hvalue, hvalue] at heq
  exact Option.map_injective (fun _ _ h => Cell.int.inj h) heq

theorem AgreeOn.float (c : Column) (hc : c ∈ columns) {value : Record → Option Binary64}
    (hvalue : ∀ r : Record, r.value? c = (value r).map .float) : value r = value s := by
  have heq := (h c hc).1
  rw [hvalue, hvalue] at heq
  exact Option.map_injective (fun _ _ h => Cell.float.inj h) heq

theorem AgreeOn.batchSize (hc : .batchSize ∈ columns) : r.batchSize = s.batchSize :=
  h.int .batchSize hc fun _ => rfl

theorem AgreeOn.flushInterval (hc : .flushIntervalMs ∈ columns) :
    r.flushInterval = s.flushInterval := by
  have heq : r.flushIntervalMs = s.flushIntervalMs :=
    h.int .flushIntervalMs hc fun _ => rfl
  rw [Record.flushInterval, Record.flushInterval, heq]

theorem AgreeOn.backpressure (hc : .serverBackpressure ∈ columns) :
    r.server.backpressure = s.server.backpressure :=
  h.int .serverBackpressure hc fun _ => rfl

theorem AgreeOn.configuration (hflush : .flushIntervalMs ∈ columns)
    (hbatch : .batchSize ∈ columns) : r.configuration = s.configuration := by
  rw [Record.configuration, Record.configuration, h.flushInterval hflush, h.batchSize hbatch]

theorem AgreeOn.label (hflush : .flushIntervalMs ∈ columns) (hbatch : .batchSize ∈ columns) :
    r.label = s.label := by
  rw [Record.label, Record.label, h.flushInterval hflush, h.batchSize hbatch]

end

theorem get?_eq_none_iff {α : Type} {columns : Columns α} {name : String} :
    columns.get? name = none ↔ columns.contains name = false := by
  rw [Columns.contains, Option.isSome_eq_false_iff, Option.isNone_iff_eq_none]

/-- Records that agree on what a chart needs pass its check together. -/
theorem meets_congr {needs : Needs} {r s : Record}
    (h : AgreeOn (needs.required ++ needs.optional) r s) : needs.meets r = needs.meets s := by
  rw [Bool.eq_iff_iff, meets_iff, meets_iff]
  simp only [get?_eq_none_iff]
  refine and_congr (forall₂_congr fun c hc => ?_) (forall₂_congr fun c hc => ?_)
  · rw [(h c hc).2]
  · rw [(h c (List.mem_append_left _ hc)).1]

/-! ## Lists that agree -/

section
variable {α : Type} {R : Record → Record → Prop} {rs ss : List Record}
  (h : List.Forall₂ R rs ss)
include h

theorem map_congr_forall₂ {f : Record → α} (hf : ∀ r s, R r s → f r = f s) :
    rs.map f = ss.map f := by
  rw [← List.forall₂_eq_eq_eq, List.forall₂_map_left_iff, List.forall₂_map_right_iff]
  exact h.imp hf

theorem filterMap_congr_forall₂ {f : Record → Option α} (hf : ∀ r s, R r s → f r = f s) :
    rs.filterMap f = ss.filterMap f := by
  induction h with
  | nil => rfl
  | cons hrs _ ih => rw [List.filterMap_cons, List.filterMap_cons, hf _ _ hrs, ih]

theorem filter_forall₂ {p : Record → Bool} (hp : ∀ r s, R r s → p r = p s) :
    List.Forall₂ R (rs.filter p) (ss.filter p) :=
  List.rel_filter (fun r s hrs => Bool.eq_iff_iff.1 (hp r s hrs)) h

theorem collect_fst_congr {needs : Needs} {kind : ChartKind} {point? : Record → Option α}
    (hmeets : ∀ r s, R r s → needs.meets r = needs.meets s)
    (hpoint : ∀ r s, R r s → point? r = point? s) :
    (needs.collect kind point? rs).1 = (needs.collect kind point? ss).1 := by
  rw [Needs.collect_fst, Needs.collect_fst]
  exact filterMap_congr_forall₂ (filter_forall₂ h hmeets) hpoint

end

/-! ## The data of the charts -/

namespace Lines

/-- The columns of the lines. -/
def columns : List Column := [.batchSize, .p50Ms, .p99Ms, .throughputMsgSec, .flushIntervalMs]

theorem point?_congr {r s : Record} (h : AgreeOn columns r s) : point? r = point? s := by
  have hp50 : r.p50Ms = s.p50Ms := h.float .p50Ms (by decide) fun _ => rfl
  have hp99 : r.p99Ms = s.p99Ms := h.float .p99Ms (by decide) fun _ => rfl
  have hthroughput : r.throughputMsgSec = s.throughputMsgSec :=
    h.float .throughputMsgSec (by decide) fun _ => rfl
  rw [point?, point?, h.batchSize (by decide), hp50, hp99, hthroughput]

theorem points_congr {rs ss : List Record} (h : List.Forall₂ (AgreeOn columns) rs ss) :
    points rs = points ss := by
  have hsorted := Record.forall₂_sortByConfiguration h fun r s hrs =>
    hrs.configuration (by decide) (by decide)
  exact collect_fst_congr hsorted (fun r s hrs => meets_congr hrs) fun r s hrs => point?_congr hrs

end Lines

namespace Scatter

/-- The columns of the scatter. -/
def columns : List Column :=
  [.throughputMsgSec, .p99Ms, .batchSize, .flushIntervalMs, .serverBackpressure]

theorem point?_congr {r s : Record} (h : AgreeOn columns r s) : point? r = point? s := by
  have hthroughput : r.throughputMsgSec = s.throughputMsgSec :=
    h.float .throughputMsgSec (by decide) fun _ => rfl
  have hp99 : r.p99Ms = s.p99Ms := h.float .p99Ms (by decide) fun _ => rfl
  rw [point?, point?, h.label (by decide) (by decide), h.batchSize (by decide), hthroughput, hp99,
    Record.serverBackpressure, Record.serverBackpressure, h.backpressure (by decide)]

theorem points_congr {rs ss : List Record} (h : List.Forall₂ (AgreeOn columns) rs ss) :
    points rs = points ss := by
  exact collect_fst_congr h (fun r s hrs => meets_congr hrs) fun r s hrs => point?_congr hrs

end Scatter

namespace Grid

/-- The columns of the heatmap. -/
def columns : List Column := [.batchSize, .flushIntervalMs, .serverBackpressure]

theorem add_congr (s : Survey) {q r : Record} (h : AgreeOn columns q r) : s.add q = s.add r := by
  rw [Survey.add, Survey.add, h.batchSize (by decide), h.flushInterval (by decide),
    Record.serverBackpressure, Record.serverBackpressure, h.backpressure (by decide)]

theorem build?_congr {rs ss : List Record} (h : List.Forall₂ (AgreeOn columns) rs ss) :
    build? rs = build? ss := by
  have hsurvey : Survey.ofRecords rs = Survey.ofRecords ss := by
    have husable := filter_forall₂ h (p := needs.meets) fun r s hrs => meets_congr hrs
    rw [Survey.ofRecords_eq, Survey.ofRecords_eq]
    refine List.rel_foldl (P := Eq) (fun s t hst q r hqr => ?_) rfl husable
    rw [hst]
    exact add_congr t hqr
  rw [build?, build?, hsurvey]

end Grid

/-! ## All charts of a sweep -/

/-- The columns of all charts. -/
def chartColumns : List Column :=
  [.batchSize, .flushIntervalMs, .p50Ms, .p99Ms, .throughputMsgSec, .serverBackpressure]

/-- Records that agree on the columns of all charts, and on the values that only the text below the
titles reads. -/
structure AgreeInCharts (r s : Record) : Prop where
  columns : AgreeOn chartColumns r s
  payloadBytes : r.payloadBytes = s.payloadBytes
  received : r.received = s.received
  dropped : r.dropped = s.dropped

namespace Summary

theorem total_congr {R : Record → Record → Prop} {rs ss : List Record} (h : List.Forall₂ R rs ss)
    {value : Record → Option Int} (hvalue : ∀ r s, R r s → value r = value s) :
    total value rs = total value ss := by
  rw [total, total, filterMap_congr_forall₂ h hvalue]

/-- The text below the titles says nothing about clients or about the best configurations. -/
theorem subtext_congr {rs ss : List Record} (h : List.Forall₂ AgreeInCharts rs ss) :
    (ofRecords rs).subtext = (ofRecords ss).subtext := by
  have hrecords : (ofRecords rs).records = (ofRecords ss).records := h.length_eq
  have hbatchSizes : (ofRecords rs).batchSizes = (ofRecords ss).batchSizes :=
    congrArg distinct (filterMap_congr_forall₂ h fun r s hrs => hrs.columns.batchSize (by decide))
  have hflushIntervals : (ofRecords rs).flushIntervals = (ofRecords ss).flushIntervals :=
    congrArg distinct (map_congr_forall₂ h fun r s hrs => hrs.columns.flushInterval (by decide))
  have hpayloads : (ofRecords rs).payloadBytes = (ofRecords ss).payloadBytes :=
    congrArg distinct (filterMap_congr_forall₂ h fun r s hrs => hrs.payloadBytes)
  have hreceived : (ofRecords rs).received = (ofRecords ss).received :=
    total_congr h fun r s hrs => hrs.received
  have hdropped : (ofRecords rs).dropped = (ofRecords ss).dropped :=
    total_congr h fun r s hrs => hrs.dropped
  have hbackpressure : (ofRecords rs).serverBackpressure = (ofRecords ss).serverBackpressure :=
    total_congr h fun r s hrs => hrs.columns.backpressure (by decide)
  have hsweep : (ofRecords rs).sweepText = (ofRecords ss).sweepText := by
    rw [sweepText, sweepText, hrecords, hbatchSizes, hflushIntervals, hpayloads]
  have htraffic : (ofRecords rs).trafficText = (ofRecords ss).trafficText := by
    rw [trafficText, trafficText, hreceived, hdropped, hbackpressure]
  rw [subtext, subtext, hsweep, htraffic]

end Summary

theorem namedCharts_congr {rs ss : List Record} (h : List.Forall₂ AgreeInCharts rs ss)
    (dark : Bool) : NamedChart.ofRecords rs dark = NamedChart.ofRecords ss dark := by
  have hsubtext := Summary.subtext_congr h
  have hlines : Lines.points rs = Lines.points ss :=
    Lines.points_congr (h.imp fun r s hrs => hrs.columns.mono (by decide))
  have hscatter : Scatter.points rs = Scatter.points ss :=
    Scatter.points_congr (h.imp fun r s hrs => hrs.columns.mono (by decide))
  have hgrid : Grid.build? rs = Grid.build? ss :=
    Grid.build?_congr (h.imp fun r s hrs => hrs.columns.mono (by decide))
  simp only [NamedChart.ofRecords, Lines.chart, Scatter.chart, Grid.chart?, hsubtext, hlines,
    hscatter, hgrid]

/-- **A chart depends only on the columns that it reads**: on their values, and on which of them are
invalid. The text of all charts depends on three values more. -/
theorem charts_depend_on_columns_read (rs ss : List Record) :
    (List.Forall₂ (AgreeOn [.batchSize, .p50Ms, .p99Ms, .throughputMsgSec, .flushIntervalMs])
      rs ss → Lines.points rs = Lines.points ss) ∧
    (List.Forall₂ (AgreeOn [.throughputMsgSec, .p99Ms, .batchSize, .flushIntervalMs,
      .serverBackpressure]) rs ss → Scatter.points rs = Scatter.points ss) ∧
    (List.Forall₂ (AgreeOn [.batchSize, .flushIntervalMs, .serverBackpressure]) rs ss →
      Grid.build? rs = Grid.build? ss) ∧
    (List.Forall₂ AgreeInCharts rs ss → ∀ dark,
      NamedChart.ofRecords rs dark = NamedChart.ofRecords ss dark) :=
  ⟨Lines.points_congr, Scatter.points_congr, Grid.build?_congr, namedCharts_congr⟩

/-- Other files, other unknown columns, other texts in an invalid cell, and a timeout. -/
theorem charts_depend_on_columns_read_other_cells :
    let r : Record :=
      { origin := ⟨"a.csv", 2⟩, batchSize := some 4, throughputMsgSec := some 9.5,
        invalid := .ofList [("p99Ms", .text "slow")] }
    let s : Record :=
      { r with origin := ⟨"b.csv", 7⟩, timeoutMs := some 30,
               extra := .ofList [("note", .text "x")], invalid := .ofList [("p99Ms", .text "?")] }
    List.Forall₂ AgreeInCharts [r, s] [s, r] ∧
      Lines.points [r, s] = Lines.points [s, r] ∧
      Scatter.points [r, s] = Scatter.points [s, r] ∧
      Grid.build? [r, s] = Grid.build? [s, r] ∧
      ∀ dark, NamedChart.ofRecords [r, s] dark = NamedChart.ofRecords [s, r] dark := by
  intro r s
  have hvalue : ∀ c ∈ chartColumns, r.value? c = s.value? c := by
    intro c hc
    simp only [chartColumns, List.mem_cons, List.not_mem_nil, or_false] at hc
    rcases hc with rfl | rfl | rfl | rfl | rfl | rfl <;> rfl
  have hinvalid : ∀ c ∈ chartColumns, r.invalid.contains c.name = s.invalid.contains c.name := by
    decide +kernel
  have hrs : AgreeInCharts r s :=
    ⟨fun c hc => ⟨hvalue c hc, hinvalid c hc⟩, rfl, rfl, rfl⟩
  have hsr : AgreeInCharts s r :=
    ⟨fun c hc => ⟨(hvalue c hc).symm, (hinvalid c hc).symm⟩, rfl, rfl, rfl⟩
  have hall : List.Forall₂ AgreeInCharts [r, s] [s, r] := .cons hrs (.cons hsr .nil)
  obtain ⟨hlines, hscatter, hgrid, hcharts⟩ := charts_depend_on_columns_read [r, s] [s, r]
  exact ⟨hall, hlines (hall.imp fun _ _ h => h.columns.mono (by decide)),
    hscatter (hall.imp fun _ _ h => h.columns.mono (by decide)),
    hgrid (hall.imp fun _ _ h => h.columns.mono (by decide)), hcharts hall⟩

end SweepCharts
