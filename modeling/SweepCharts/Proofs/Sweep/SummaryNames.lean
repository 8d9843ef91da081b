import SweepCharts.Proofs.Number.Nearest
import SweepCharts.Proofs.Sweep.Dump
import SweepCharts.Proofs.Sweep.Highlights

set_option autoImplicit false

/-! # What a summary names

A summary reads a missing flush interval as 0, and it does not look at the invalid cells. So a
record whose flush interval is no integer counts as one with an interval of 0, although no chart
draws it.

* `Record.IsLoaded.value?_eq_none`: an invalid cell leaves the field of its column empty.
* `noNaN_of_isLoaded`: no loaded value is a NaN, so a highlight is the first best record.
* `mem_flushIntervals_iff_readable`: when the list of flush intervals is right nevertheless.
* `summary_reads_unreadable_as_zero`: what a summary names.
-/

namespace SweepCharts

/-! ## Loaded values -/

namespace Record

/-- The flush interval of the record is an integer or missing. -/
def FlushReadable (r : Record) : Prop := r.invalid.get? "flushIntervalMs" = none

instance : DecidablePred FlushReadable := fun r => by
  unfold FlushReadable
  infer_instance

variable {r : Record}

theorem IsLoaded.value?_eq_none (h : r.IsLoaded) {c : Column}
    (hinvalid : r.invalid.get? c.name ≠ none) : r.value? c = none := by
  obtain ⟨row, rfl⟩ := h
  rw [SourceRow.record, get?_invalid_ofCells] at hinvalid
  rw [SourceRow.record, value?_ofCells]
  cases hcell : row.cells.get? c.name with
  | none => rfl
  | some cell =>
    rw [hcell, Option.filter_some, Cell.isInvalidFor_name] at hinvalid
    cases hconvert : c.convert cell with
    | none => simp [hconvert]
    | some value => simp [hconvert] at hinvalid

/-- A flush interval that cannot be read is read as 0. -/
theorem IsLoaded.flushInterval_eq_zero (h : r.IsLoaded) (hr : ¬ r.FlushReadable) :
    r.flushInterval = 0 := by
  have hnone := Option.map_eq_none_iff.1 (h.value?_eq_none (c := .flushIntervalMs) hr)
  rw [flushInterval, hnone, Option.getD_none]

theorem IsLoaded.isNaN_eq_false (h : r.IsLoaded) {c : Column} {x : Binary64}
    (hx : r.value? c = some (.float x)) : x.isNaN = false := by
  obtain ⟨row, rfl⟩ := h
  rw [SourceRow.record, value?_ofCells, Option.bind_eq_some_iff] at hx
  obtain ⟨cell, hcell, hconvert⟩ := hx
  unfold Column.convert at hconvert
  split at hconvert
  · obtain ⟨n, -, hn⟩ := Option.map_eq_some_iff.1 hconvert
    cases hn
  · obtain ⟨y, hy, hyx⟩ := Option.map_eq_some_iff.1 hconvert
    obtain rfl := Cell.float.inj hyx
    cases cell with
    | int n =>
      obtain rfl := Option.some.inj hy
      exact Binary64.isNaN_ofInt n
    | float z =>
      obtain rfl := Option.some.inj hy
      exact Binary64.isNaN_of_isFinite (IsLoaded.storable_cells hcell)
    | text s => cases hy

end Record

section
variable {records : List Record} (hloaded : ∀ r ∈ records, r.IsLoaded)
include hloaded

theorem noNaN_of_isLoaded {c : Column} {value : Record → Option Binary64}
    (hvalue : ∀ r : Record, r.value? c = (value r).map .float) : Highlight.NoNaN value records := by
  intro r hr x hx
  refine (hloaded r hr).isNaN_eq_false (c := c) ?_
  rw [hvalue, hx]
  rfl

/-! ## Flush intervals -/

theorem mem_flushIntervals {n : Int} : n ∈ (Summary.ofRecords records).flushIntervals ↔
    (∃ r ∈ records, r.FlushReadable ∧ r.flushInterval = n) ∨
      n = 0 ∧ ∃ r ∈ records, ¬ r.FlushReadable := by
  have hlist : (Summary.ofRecords records).flushIntervals =
      distinct (records.map Record.flushInterval) := rfl
  rw [hlist, mem_distinct, List.mem_map]
  constructor
  · rintro ⟨r, hr, rfl⟩
    by_cases hread : r.FlushReadable
    · exact .inl ⟨r, hr, hread, rfl⟩
    · exact .inr ⟨(hloaded r hr).flushInterval_eq_zero hread, r, hr, hread⟩
  · rintro (⟨r, hr, -, rfl⟩ | ⟨rfl, r, hr, hread⟩)
    · exact ⟨r, hr, rfl⟩
    · exact ⟨r, hr, (hloaded r hr).flushInterval_eq_zero hread⟩

/-- The list is right if a 0 that is not read stands beside one that is. -/
theorem mem_flushIntervals_iff_readable :
    (∀ n, n ∈ (Summary.ofRecords records).flushIntervals ↔
      ∃ r ∈ records, r.FlushReadable ∧ r.flushInterval = n) ↔
    ((∃ r ∈ records, ¬ r.FlushReadable) →
      ∃ r ∈ records, r.FlushReadable ∧ r.flushInterval = 0) := by
  simp only [mem_flushIntervals hloaded]
  constructor
  · intro h hunread
    exact (h 0).1 (.inr ⟨rfl, hunread⟩)
  · intro h n
    refine ⟨?_, .inl⟩
    rintro (hread | ⟨rfl, hunread⟩)
    · exact hread
    · exact h hunread

end

/-- **A summary reads an unreadable flush interval as 0.** It lists the flush intervals of the
records whose cell can be read, and 0 if there is another record; so the list is right exactly if
there is no other record, or one whose flush interval is read as 0 besides. The two highlights name
the first best record whether its cell can be read or not, and one that cannot is named with an
interval of 0. -/
theorem summary_reads_unreadable_as_zero (rows : List SourceRow) :
    let records := rows.map SourceRow.record
    let s := Summary.ofRecords records
    s.flushIntervals.Pairwise (· < ·) ∧
      (∀ n, n ∈ s.flushIntervals ↔
        (∃ r ∈ records, r.FlushReadable ∧ r.flushInterval = n) ∨
          n = 0 ∧ ∃ r ∈ records, ¬ r.FlushReadable) ∧
      ((∀ n, n ∈ s.flushIntervals ↔ ∃ r ∈ records, r.FlushReadable ∧ r.flushInterval = n) ↔
        ((∃ r ∈ records, ¬ r.FlushReadable) →
          ∃ r ∈ records, r.FlushReadable ∧ r.flushInterval = 0)) ∧
      (∀ h, s.bestThroughput = some h ↔ ∃ r,
        Highlight.FirstBest (fun h => h.value.scaled) Record.throughputMsgSec records h r) ∧
      (∀ h, s.lowestP99 = some h ↔ ∃ r,
        Highlight.FirstBest (fun h => -h.value.scaled) Record.p99Ms records h r) ∧
      ∀ r ∈ records, ¬ r.FlushReadable →
        ∀ (value : Record → Option Binary64) (h : Highlight), h.Names value r →
          h.flushInterval = 0 := by
  intro records s
  have hloaded : ∀ r ∈ records, r.IsLoaded := List.forall_mem_map.2 fun row _ => ⟨row, rfl⟩
  have hthroughput : Highlight.NoNaN Record.throughputMsgSec records :=
    noNaN_of_isLoaded hloaded (c := .throughputMsgSec) fun _ => rfl
  have hp99 : Highlight.NoNaN Record.p99Ms records :=
    noNaN_of_isLoaded hloaded (c := .p99Ms) fun _ => rfl
  refine ⟨ascending_distinct _, fun n => mem_flushIntervals hloaded,
    mem_flushIntervals_iff_readable hloaded,
    fun h => Highlight.best?_eq_some_iff (Highlight.orders_larger hthroughput),
    fun h => Highlight.best?_eq_some_iff (Highlight.orders_smaller hp99),
    fun r hr hread value h hh => ?_⟩
  rw [← hh.flushInterval]
  exact (hloaded r hr).flushInterval_eq_zero hread

/-- The second of two configurations has no readable flush interval. It is the best in both ways,
and the summary lists an interval of 0 and names this configuration twice. -/
theorem unreadable_record_named :
    let rows : List SourceRow :=
      [⟨⟨"in.csv", 2⟩, .ofList [("batchSize", "1"), ("flushIntervalMs", "5"),
        ("throughputMsgSec", "100"), ("p99Ms", "2")]⟩,
       ⟨⟨"in.csv", 3⟩, .ofList [("batchSize", "4"), ("flushIntervalMs", "n/a"),
        ("throughputMsgSec", "900"), ("p99Ms", "1")]⟩]
    let records := rows.map SourceRow.record
    let s := Summary.ofRecords records
    ¬ (∀ n, n ∈ s.flushIntervals ↔ ∃ r ∈ records, r.FlushReadable ∧ r.flushInterval = n) ∧
      ¬ (∀ h ∈ s.bestThroughput,
        ∃ r ∈ records, r.FlushReadable ∧ h.Names Record.throughputMsgSec r) ∧
      ¬ ∀ h ∈ s.lowestP99, ∃ r ∈ records, r.FlushReadable ∧ h.Names Record.p99Ms r := by
  refine ⟨fun h => ?_, fun h => ?_, fun h => ?_⟩
  · exact absurd ((h 0).1 (by decide +kernel)) (by decide +kernel)
  · exact absurd (h ⟨4, 0, .ofInt 900⟩ (by decide +kernel)) (by decide +kernel)
  · exact absurd (h ⟨4, 0, .ofInt 1⟩ (by decide +kernel)) (by decide +kernel)

end SweepCharts
