import SweepCharts.Proofs.Sweep.Reordering

set_option autoImplicit false

/-! # Lines follow the usable records

All records are sorted, with missing values read as 0, and those that the lines cannot use are left
out afterwards. Because the order is stable, this is the order of the usable records alone.

* `Record.arranged_iff`: there is one way to arrange records by configuration.
* `Record.filter_sortByConfiguration_comm`: leaving out records before or after sorting is the same.
* `Lines.meets_iff_usable`: what the check of a record by column names means for its fields.
* `lines_follow_usable_records`: the points of the lines, one by one.
-/

namespace SweepCharts

namespace Record

/-! ## One arrangement -/

theorem Arranged.ofConfiguration_eq {records sorted : List Record} (h : Arranged records sorted)
    (c : Configuration) : ofConfiguration sorted c = ofConfiguration records c := by
  obtain ⟨flush, batch⟩ := c
  have hof (rs : List Record) : ofConfiguration rs ⟨flush, batch⟩ =
      rs.filter fun r => r.flushInterval = flush ∧ r.batchSize.getD 0 = batch := by
    apply List.filter_congr
    intro r _
    simp [configuration]
  rw [hof, hof]
  exact h.stable flush batch

/-- Sorting is the only way to arrange records. -/
theorem arranged_iff {records sorted : List Record} :
    Arranged records sorted ↔ sorted = sortByConfiguration records := by
  constructor
  · intro h
    apply eq_of_ascending
    · exact h.ascending.imp Configuration.le_iff.2
    · exact List.pairwise_mergeSort precedes_trans precedes_total records
    · intro c
      rw [h.ofConfiguration_eq, ofConfiguration_sortByConfiguration]
  · rintro rfl
    exact arranged_sortByConfiguration records

/-- Records that are left out do not move the others. -/
theorem filter_sortByConfiguration_comm (p : Record → Bool) (records : List Record) :
    (sortByConfiguration records).filter p = sortByConfiguration (records.filter p) := by
  have hcomm (rs : List Record) (c : Configuration) :
      ofConfiguration (rs.filter p) c = (ofConfiguration rs c).filter p := by
    simp only [ofConfiguration, List.filter_filter, Bool.and_comm]
  apply eq_of_ascending
  · exact (List.pairwise_mergeSort precedes_trans precedes_total records).filter p
  · exact List.pairwise_mergeSort precedes_trans precedes_total (records.filter p)
  · intro c
    rw [hcomm, ofConfiguration_sortByConfiguration, ofConfiguration_sortByConfiguration, hcomm]

end Record

namespace Lines

/-! ## Usable records -/

/-- A record with all values of the lines, whose flush interval may be missing but not invalid. -/
def Usable (r : Record) : Prop :=
  r.batchSize ≠ none ∧ r.p50Ms ≠ none ∧ r.p99Ms ≠ none ∧ r.throughputMsgSec ≠ none ∧
    ∀ name ∈ ["batchSize", "p50Ms", "p99Ms", "throughputMsgSec", "flushIntervalMs"],
      r.invalid.get? name = none

instance : DecidablePred Usable := fun r => by
  unfold Usable
  infer_instance

theorem meets_iff_usable {r : Record} : needs.meets r = true ↔ Usable r := by
  have hinvalid : (∀ c ∈ needs.required ++ needs.optional, r.invalid.get? c.name = none) ↔
      ∀ name ∈ ["batchSize", "p50Ms", "p99Ms", "throughputMsgSec", "flushIntervalMs"],
        r.invalid.get? name = none := by
    simp [needs, Column.name]
  have hvalue : (∀ c ∈ needs.required, (r.value? c).isSome = true) ↔
      r.batchSize ≠ none ∧ r.p50Ms ≠ none ∧ r.p99Ms ≠ none ∧ r.throughputMsgSec ≠ none := by
    simp [needs, Record.value?, Option.isSome_iff_ne_none]
  rw [meets_iff, hinvalid, hvalue, Usable]
  tauto

theorem filter_usable (records : List Record) :
    (records.filter fun r => ¬ needs.columns.HasProblem r) =
      records.filter fun r => Usable r := by
  apply List.filter_congr
  intro r _
  simp [hasProblem_columns_iff, ← meets_iff_usable]

end Lines

/-! ## The points of the lines -/

/-- **The lines show the usable records in the order of their configurations.** Sorting returns every
record once, ordered and stable. What is left of it without the unusable records is the one way to
arrange the usable ones, and each line has a point for every record of this order, with the batch
size and the value of that record. -/
theorem lines_follow_usable_records (records : List Record) :
    Record.Arranged records (Record.sortByConfiguration records) ∧
    ∃ order, (∀ sorted, Record.Arranged (records.filter fun r => Lines.Usable r) sorted ↔
        sorted = order) ∧
      ((Record.sortByConfiguration records).filter fun r => Lines.Usable r) = order ∧
      ∀ line ∈ [(Record.p50Ms, Lines.Point.p50), (Record.p99Ms, Lines.Point.p99),
          (Record.throughputMsgSec, Lines.Point.throughput)],
        let points := Lines.line line.2 (Lines.points records)
        points.length = order.length ∧
          List.Forall₂ (fun r point => ∃ batch x, r.batchSize = some batch ∧
            line.1 r = some x ∧ point = [Binary64.ofInt batch, x]) order points := by
  refine ⟨Record.arranged_sortByConfiguration records, _, fun sorted => Record.arranged_iff,
    Record.filter_sortByConfiguration_comm _ records, ?_⟩
  intro line hline points
  have hfield : ∀ r p, Lines.IsPointOf r p → line.1 r = some (line.2 p) := by
    intro r p hp
    simp only [List.mem_cons, List.not_mem_nil, or_false] at hline
    rcases hline with rfl | rfl | rfl
    · exact hp.p50
    · exact hp.p99
    · exact hp.throughput
  have hpoints := Lines.draws_line hfield records
  rw [ReadColumns.Draws, Lines.filter_usable, Record.filter_sortByConfiguration_comm] at hpoints
  exact ⟨hpoints.length_eq.symm, hpoints⟩

end SweepCharts
