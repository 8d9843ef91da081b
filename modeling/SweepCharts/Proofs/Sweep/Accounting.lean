import SweepCharts.Proofs.Sweep.Order
import SweepCharts.Proofs.Sweep.Survey
import SweepCharts.Sweep.Lines
import SweepCharts.Sweep.Scatter

set_option autoImplicit false

/-! # Every record is drawn or reported

A chart checks a record by the names of its columns and then reads its typed fields. Both look at
the same values, so a record that passes the check has all that the chart draws, and a record that
does not pass has a warning.

* `warns_loop`: the warnings of a loop are those of the records with problems, in their order.
* `draws_collect`: what is drawn comes from the other records, in their order.
* `length_draws_add_length_warns`: together they are all records.
* `every_record_drawn_or_reported`: the three charts of a sweep.
-/

namespace SweepCharts

/-! ## What becomes of the records of a chart -/

/-- The names of the columns that a chart needs, and of those that it reads if they have a value. -/
structure ReadColumns where
  required : List String
  optional : List String

namespace ReadColumns

def HasProblem (columns : ReadColumns) (r : Record) : Prop :=
  r.problems columns.required columns.optional ≠ []

instance (columns : ReadColumns) : DecidablePred columns.HasProblem := fun r => by
  unfold HasProblem
  infer_instance

/-- The log has one warning for each record with a problem, in the order of the records, and nothing
else; a warning names the row of its record and says what the problems are. -/
def Warns (columns : ReadColumns) (kind : ChartKind) (records : List Record)
    (log : List LogLine) : Prop :=
  log = (records.filter fun r => columns.HasProblem r).map fun r =>
    .warn ("Skipping record at " ++ r.origin.file ++ ":" ++ toString r.origin.line ++ " in " ++
      kind.display ++ ": " ++
      ", ".intercalate ((r.problems columns.required columns.optional).map Problem.message))

/-- One point is drawn for each record without a problem, in the order of the records, and nothing
else. -/
def Draws {α : Type} (columns : ReadColumns) (IsPointOf : Record → α → Prop)
    (records : List Record) (points : List α) : Prop :=
  List.Forall₂ IsPointOf (records.filter fun r => ¬ columns.HasProblem r) points

theorem length_draws_add_length_warns {α : Type} {columns : ReadColumns} {kind : ChartKind}
    {IsPointOf : Record → α → Prop} {records : List Record} {points : List α}
    {log : List LogLine} (hdraws : columns.Draws IsPointOf records points)
    (hwarns : columns.Warns kind records log) :
    points.length + log.length = records.length := by
  have hall := List.length_eq_length_filter_add (l := records) fun r => columns.HasProblem r
  have hpoints := hdraws.length_eq
  have hlog := congrArg List.length hwarns
  rw [List.length_map] at hlog
  simp only [decide_not] at hpoints
  omega

end ReadColumns

/-- The names of the columns that a chart reads. -/
def Needs.columns (needs : Needs) : ReadColumns :=
  ⟨needs.required.map Column.name, needs.optional.map Column.name⟩

theorem hasProblem_columns_iff {needs : Needs} {r : Record} :
    needs.columns.HasProblem r ↔ needs.meets r = false := by
  rw [ReadColumns.HasProblem, Needs.meets, Bool.eq_false_iff, ne_eq, ne_eq, List.isEmpty_iff]
  rfl

theorem warns_loop {σ : Type} (needs : Needs) (kind : ChartKind) (take : σ → Record → σ) (s : σ)
    (records : List Record) :
    needs.columns.Warns kind records (needs.loop kind take s records).2 := by
  have hfilter : (records.filter fun r => needs.columns.HasProblem r) =
      records.filter fun r => !needs.meets r :=
    List.filter_congr fun r _ => by simp [hasProblem_columns_iff]
  rw [ReadColumns.Warns, Needs.loop_eq, hfilter]
  rfl

theorem forall₂_filterMap {α β : Type} {R : α → β → Prop} {f : α → Option β} {l : List α}
    (h : ∀ a ∈ l, ∃ b, f a = some b ∧ R a b) : List.Forall₂ R l (l.filterMap f) := by
  induction l with
  | nil => exact .nil
  | cons a l ih =>
    obtain ⟨b, hb, hR⟩ := h a (.head _)
    rw [List.filterMap_cons_some hb]
    exact .cons hR (ih fun c hc => h c (.tail _ hc))

/-- If a record that meets the needs of a chart has a point, none is dropped after the check. -/
theorem draws_collect {α : Type} {needs : Needs} {kind : ChartKind} {point? : Record → Option α}
    {IsPointOf : Record → α → Prop}
    (h : ∀ r, needs.meets r = true → ∃ p, point? r = some p ∧ IsPointOf r p)
    (records : List Record) :
    needs.columns.Draws IsPointOf records (needs.collect kind point? records).1 := by
  have hfilter : (records.filter fun r => ¬ needs.columns.HasProblem r) =
      records.filter needs.meets :=
    List.filter_congr fun r _ => by simp [hasProblem_columns_iff]
  rw [ReadColumns.Draws, hfilter, Needs.collect_fst]
  exact forall₂_filterMap fun r hr => h r (List.mem_filter.1 hr).2

theorem exists_of_isSome_map {α : Type} {f : α → Cell} {value : Option α}
    (h : (value.map f).isSome = true) : ∃ a, value = some a := by
  rw [Option.isSome_map] at h
  exact Option.isSome_iff_exists.1 h

/-! ## The points of the charts -/

namespace Lines

/-- A point holds the values of a record. -/
structure IsPointOf (r : Record) (p : Point) : Prop where
  batchSize : r.batchSize = some p.batchSize
  p50 : r.p50Ms = some p.p50
  p99 : r.p99Ms = some p.p99
  throughput : r.throughputMsgSec = some p.throughput

theorem exists_point {r : Record} (h : needs.meets r = true) :
    ∃ p, point? r = some p ∧ IsPointOf r p := by
  have hvalue := (meets_iff.1 h).2
  obtain ⟨batch, hbatch⟩ := exists_of_isSome_map (hvalue .batchSize (by decide))
  obtain ⟨p50, hp50⟩ := exists_of_isSome_map (hvalue .p50Ms (by decide))
  obtain ⟨p99, hp99⟩ := exists_of_isSome_map (hvalue .p99Ms (by decide))
  obtain ⟨throughput, hthroughput⟩ :=
    exists_of_isSome_map (hvalue .throughputMsgSec (by decide))
  refine ⟨⟨batch, p50, p99, throughput⟩, ?_, hbatch, hp50, hp99, hthroughput⟩
  rw [point?, hbatch, hp50, hp99, hthroughput]
  rfl

/-- A point of a line holds the batch size of a record and one of its values. -/
def IsLinePointOf (value : Record → Option Binary64) (r : Record) (p : List Binary64) : Prop :=
  ∃ batch x, r.batchSize = some batch ∧ value r = some x ∧ p = [Binary64.ofInt batch, x]

theorem draws_line {value : Record → Option Binary64} {field : Point → Binary64}
    (h : ∀ r p, IsPointOf r p → value r = some (field p)) (records : List Record) :
    needs.columns.Draws (IsLinePointOf value) (Record.sortByConfiguration records)
      (line field (points records)) := by
  unfold ReadColumns.Draws line points build
  rw [List.forall₂_map_right_iff]
  exact (draws_collect (fun r hr => exists_point hr) _).imp fun r p hp =>
    ⟨p.batchSize, field p, hp.batchSize, h r p hp, rfl⟩

end Lines

namespace Scatter

/-- A point holds the values of a record, and its name. -/
structure IsPointOf (r : Record) (p : Point) : Prop where
  label : p.label = r.label
  throughput : r.throughputMsgSec = some p.throughput
  p99 : r.p99Ms = some p.p99
  batchSize : r.batchSize = some p.batchSize
  backpressure : p.backpressure = r.server.backpressure.getD 0

theorem exists_point {r : Record} (h : needs.meets r = true) :
    ∃ p, point? r = some p ∧ IsPointOf r p := by
  have hvalue := (meets_iff.1 h).2
  obtain ⟨throughput, hthroughput⟩ :=
    exists_of_isSome_map (hvalue .throughputMsgSec (by decide))
  obtain ⟨p99, hp99⟩ := exists_of_isSome_map (hvalue .p99Ms (by decide))
  obtain ⟨batch, hbatch⟩ := exists_of_isSome_map (hvalue .batchSize (by decide))
  refine ⟨⟨r.label, throughput, p99, batch, r.serverBackpressure⟩, ?_, rfl, hthroughput, hp99,
    hbatch, rfl⟩
  rw [point?, hthroughput, hp99, hbatch]
  rfl

end Scatter

namespace Grid

/-- A record is on the axes of a survey. -/
def OnAxes (s : Survey) (r : Record) : Prop :=
  ∃ batch, r.batchSize = some batch ∧ batch ∈ s.batchSizes ∧ r.flushInterval ∈ s.flushIntervals

theorem onAxes_ofRecords {records : List Record} {r : Record} (hr : r ∈ records)
    (h : needs.meets r = true) : OnAxes (Survey.ofRecords records) r := by
  have hdescribes := Survey.describes_ofRecords records
  have husable := needs_meets_iff.1 h
  have hmem : r ∈ records.filter fun r => Usable r := List.mem_filter.2 ⟨hr, by simpa using husable⟩
  obtain ⟨batch, hbatch⟩ := Option.ne_none_iff_exists'.1 husable.1
  exact ⟨batch, hbatch, (hdescribes.batchSizes batch).2 ⟨r, hmem, hbatch⟩,
    (hdescribes.flushIntervals _).2 ⟨r, hmem, rfl⟩⟩

/-- A grid has the axes of the survey. -/
theorem axes_of_build? {records : List Record} {g : Grid} (h : build? records = some g) :
    g.batchSizes = (Survey.ofRecords records).batchSizes ∧
      g.flushIntervals = (Survey.ofRecords records).flushIntervals := by
  unfold build? Survey.grid? at h
  split at h
  · cases h
  · obtain rfl := Option.some.inj h
    exact ⟨rfl, rfl⟩

end Grid

/-! ## All charts of a sweep -/

/-- The columns of the lines. -/
def lineColumns : ReadColumns :=
  ⟨["batchSize", "p50Ms", "p99Ms", "throughputMsgSec"], ["flushIntervalMs"]⟩

/-- The columns of the scatter. -/
def scatterColumns : ReadColumns :=
  ⟨["throughputMsgSec", "p99Ms", "batchSize"], ["flushIntervalMs", "serverBackpressure"]⟩

/-- The columns of the heatmap. -/
def heatmapColumns : ReadColumns := ⟨["batchSize"], ["flushIntervalMs", "serverBackpressure"]⟩

theorem meets_of_not_hasProblem {needs : Needs} {r : Record} (h : ¬ needs.columns.HasProblem r) :
    needs.meets r = true := by
  rw [hasProblem_columns_iff, Bool.not_eq_false] at h
  exact h

/-- **No chart loses a record.** The lines and the scatter have a point for each record without a
problem in their columns, and the survey of the heatmap has it on its axes; each other record has a
warning that names its row, and there are no further warnings. The lines go through the records in
the order of their configurations, the others in the order in which they were loaded. No record is
dropped in any other way, because one without a problem has all values that are drawn. -/
theorem every_record_drawn_or_reported (records : List Record) :
    (∃ sorted, Record.Arranged records sorted ∧
      lineColumns.Warns .latencyThroughput sorted (Lines.warnings records) ∧
      ∀ line ∈ [(Record.p50Ms, Lines.Point.p50), (Record.p99Ms, Lines.Point.p99),
          (Record.throughputMsgSec, Lines.Point.throughput)],
        let points := Lines.line line.2 (Lines.points records)
        lineColumns.Draws (Lines.IsLinePointOf line.1) sorted points ∧
          points.length + (Lines.warnings records).length = records.length) ∧
    (scatterColumns.Warns .throughputVsLatency records (Scatter.warnings records) ∧
      scatterColumns.Draws Scatter.IsPointOf records (Scatter.points records) ∧
      (Scatter.points records).length + (Scatter.warnings records).length = records.length) ∧
    (heatmapColumns.Warns .backpressureHeatmap records (Grid.warnings records) ∧
      (∀ r ∈ records, ¬ heatmapColumns.HasProblem r →
        Grid.OnAxes (Grid.Survey.ofRecords records) r) ∧
      ∀ g, Grid.build? records = some g →
        g.batchSizes = (Grid.Survey.ofRecords records).batchSizes ∧
          g.flushIntervals = (Grid.Survey.ofRecords records).flushIntervals) ∧
    ∀ r, (¬ lineColumns.HasProblem r → Lines.point? r ≠ none) ∧
      (¬ scatterColumns.HasProblem r → Scatter.point? r ≠ none) ∧
      (¬ heatmapColumns.HasProblem r → r.batchSize ≠ none) := by
  have hsorted := Record.arranged_sortByConfiguration records
  have hlines : lineColumns.Warns .latencyThroughput (Record.sortByConfiguration records)
      (Lines.warnings records) := warns_loop _ _ _ _ _
  have hscatter : scatterColumns.Warns .throughputVsLatency records (Scatter.warnings records) :=
    warns_loop _ _ _ _ _
  have hmarkers : scatterColumns.Draws Scatter.IsPointOf records (Scatter.points records) :=
    draws_collect (fun r hr => Scatter.exists_point hr) records
  refine ⟨⟨Record.sortByConfiguration records, hsorted, hlines, fun line hline => ?_⟩,
    ⟨hscatter, hmarkers, ReadColumns.length_draws_add_length_warns hmarkers hscatter⟩,
    ⟨warns_loop _ _ _ _ _, fun r hr h => ?_, fun g hg => Grid.axes_of_build? hg⟩,
    fun r => ⟨fun h => ?_, fun h => ?_, fun h => ?_⟩⟩
  · have hdraws : lineColumns.Draws (Lines.IsLinePointOf line.1)
        (Record.sortByConfiguration records) (Lines.line line.2 (Lines.points records)) := by
      refine Lines.draws_line (fun r p hp => ?_) records
      simp only [List.mem_cons, List.not_mem_nil, or_false] at hline
      rcases hline with rfl | rfl | rfl
      · exact hp.p50
      · exact hp.p99
      · exact hp.throughput
    refine ⟨hdraws, ?_⟩
    rw [← hsorted.perm.length_eq]
    exact ReadColumns.length_draws_add_length_warns hdraws hlines
  · exact Grid.onAxes_ofRecords hr (meets_of_not_hasProblem h)
  · obtain ⟨p, hp, -⟩ := Lines.exists_point (meets_of_not_hasProblem h)
    exact Option.ne_none_iff_exists'.2 ⟨p, hp⟩
  · obtain ⟨p, hp, -⟩ := Scatter.exists_point (meets_of_not_hasProblem h)
    exact Option.ne_none_iff_exists'.2 ⟨p, hp⟩
  · exact (Grid.needs_meets_iff.1 (meets_of_not_hasProblem h)).1

end SweepCharts
