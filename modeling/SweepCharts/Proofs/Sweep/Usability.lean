import SweepCharts.Proofs.Sweep.Names
import SweepCharts.Sweep.Usability

set_option autoImplicit false

/-! # When a chart can use a record

A chart's needs are looked up by name, in the invalid cells and among the columns with a value.

* `meets_iff`: no column that the chart reads is invalid, and the required ones have a value.
* `Needs.loop_eq`: going over records takes the usable ones and warns of the others, both in their
  order.
-/

namespace SweepCharts

theorem problems_eq_nil_iff {r : Record} {required optional : List String} :
    r.problems required optional = [] ↔
      (∀ name ∈ required ++ optional, r.invalid.get? name = none) ∧
      ∀ name ∈ required, r.hasValue name = true := by
  unfold Record.problems
  rw [List.append_eq_nil_iff, List.filterMap_eq_nil_iff, List.map_eq_nil_iff, List.filter_eq_nil_iff]
  simp only [Option.map_eq_none_iff]
  refine and_congr_right fun hinvalid => forall₂_congr fun name hname => ?_
  have hnone := hinvalid name (List.mem_append_left _ hname)
  simp [Columns.contains, hnone]

/-- **The records that a chart can use.** -/
theorem meets_iff {needs : Needs} {r : Record} :
    needs.meets r = true ↔
      (∀ c ∈ needs.required ++ needs.optional, r.invalid.get? c.name = none) ∧
      ∀ c ∈ needs.required, (r.value? c).isSome = true := by
  rw [Needs.meets, List.isEmpty_iff, Needs.problems, problems_eq_nil_iff, ← List.map_append]
  simp only [List.forall_mem_map, hasValue_name]

/-! ## Going over the records -/

namespace Needs

variable {σ α : Type} (needs : Needs) (kind : ChartKind)

/-- **A loop takes the usable records and warns of the others.** -/
theorem loop_eq (take : σ → Record → σ) (s : σ) (records : List Record) :
    needs.loop kind take s records =
      ((records.filter needs.meets).foldl take s,
        (records.filter fun r => !needs.meets r).map fun r =>
          skipWarning kind r (needs.problems r)) := by
  induction records generalizing s with
  | nil => rfl
  | cons r rest ih =>
    cases hr : needs.meets r <;> simp [loop, check, hr, ih]

theorem foldl_append_toList (point? : Record → Option α) (points : List α)
    (records : List Record) :
    records.foldl (fun points r => points ++ (point? r).toList) points =
      points ++ records.filterMap point? := by
  induction records generalizing points with
  | nil => exact (List.append_nil points).symm
  | cons r rest ih =>
    rw [List.foldl_cons, ih, List.append_assoc]
    cases hr : point? r <;> simp [hr]

/-- The points of a chart are those of the usable records. -/
theorem collect_fst (point? : Record → Option α) (records : List Record) :
    (needs.collect kind point? records).1 = (records.filter needs.meets).filterMap point? := by
  rw [collect, loop_eq]
  exact foldl_append_toList point? [] _

end Needs

end SweepCharts
