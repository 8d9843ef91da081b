import SweepCharts.Proofs.Sweep.Placement
import SweepCharts.Proofs.Sweep.Usability

set_option autoImplicit false

/-! # What a chart needs of a row

A chart looks at the record of a row, by the names of its columns. What it finds there can be said
of the row itself: a column has a value if its cell is there, is not blank and converts to the type
of the column, and it is in the way of a chart if its cell is there, is not blank and does not
convert.

* `hasValue_ofRow`: the columns with a value.
* `get?_invalid_ofRow_eq_none_iff`: the columns whose cell is not in the way.
* `missing_not_mem_of_notNumber`: a column has one problem at most.
* `usability_follows_from_row`: so whether a chart can use a record is decided by its row.
-/

namespace SweepCharts

/-! ## What a row holds under a name -/

/-- The columns of doubles; the other columns of the header are columns of integers. -/
def realNames : List String :=
  ["p50Ms", "p99Ms", "maxMs", "throughputMsgSec", "clientAvgBuffers", "clientAvgBytes",
   "serverAvgBuffers", "serverAvgBytes"]

/-- A cell converts to the type of the column with this name. -/
def Cell.ConvertsFor (cell : Cell) (name : String) : Prop :=
  if name ∈ realNames then ∃ x, cell.toFloat? = some x else ∃ n, cell.toInt? = some n

namespace Columns

/-- The column is in the header, and the row has a cell for it that is not blank and converts. -/
def Fills (row : Columns String) (name : String) : Prop :=
  name ∈ header ∧ ∃ text, row.get? name = some text ∧ isBlankText text = false ∧
    (Cell.ofText text).ConvertsFor name

/-- The row has no cell for the column, or a blank one, or one that converts. -/
def Spares (row : Columns String) (name : String) : Prop :=
  row.get? name = none ∨ ∃ text, row.get? name = some text ∧
    (isBlankText text = true ∨ (Cell.ofText text).ConvertsFor name)

end Columns

theorem mem_realNames (c : Column) : c.name ∈ realNames ↔ c.isWhole = false := by
  cases c with
  | buffering side stat => cases side <;> cases stat <;> decide
  | _ => decide

theorem convertsFor_name (c : Column) (cell : Cell) :
    cell.ConvertsFor c.name ↔ (c.convert cell).isSome = true := by
  unfold Cell.ConvertsFor Column.convert
  cases hwhole : c.isWhole with
  | true => simp [mem_realNames, hwhole, Option.isSome_iff_exists]
  | false => simp [mem_realNames, hwhole, Option.isSome_iff_exists]

/-! ## What the record of a row says about a name -/

section
variable {origin : Origin} {row : Columns String} {name : String}

/-- **The columns with a value** are those that the row fills. -/
theorem hasValue_ofRow : (Record.ofRow origin row).hasValue name = true ↔ row.Fills name := by
  rw [hasValue_eq, Columns.Fills, mem_header]
  cases hname : Column.ofName? name with
  | none => simp
  | some c =>
    obtain rfl := Column.ofName?_eq_some.1 hname
    rw [Option.bind_some, Record.ofRow, value?_ofCells, Columns.get?_map]
    cases hcell : row.get? c.name with
    | none => simp
    | some text =>
      -- a blank cell does not convert, so the second condition is part of the third
      have hblank (hconvert : (c.convert (Cell.ofText text)).isSome = true) :
          isBlankText text = false := by
        rw [← isBlank_ofText, ← Bool.not_eq_true]
        intro hb
        rw [convert_of_isBlank hb] at hconvert
        cases hconvert
      simpa [convertsFor_name] using hblank

/-- **The columns that are not in the way** of a chart. -/
theorem get?_invalid_ofRow_eq_none_iff :
    (Record.ofRow origin row).invalid.get? name = none ↔ name ∈ header → row.Spares name := by
  rw [Record.ofRow, get?_invalid_ofCells, Columns.get?_map, Columns.Spares, mem_header]
  cases hcell : row.get? name with
  | none => simp
  | some text =>
    rw [Option.map_some, Option.filter_some]
    cases hname : Column.ofName? name with
    | none => simp [Cell.isInvalidFor, hname]
    | some c =>
      obtain rfl := Column.ofName?_eq_some.1 hname
      rw [Cell.isInvalidFor_name, isBlank_ofText]
      simp only [Option.some.injEq, exists_eq_left', convertsFor_name]
      cases isBlankText text <;> cases (c.convert (Cell.ofText text)) <;> simp

theorem Columns.Fills.spares (h : row.Fills name) : row.Spares name := by
  obtain ⟨-, text, htext, -, hconverts⟩ := h
  exact .inr ⟨text, htext, .inr hconverts⟩

end

theorem mem_problems_missing {r : Record} {required optional : List String} {name : String}
    (h : .missing name ∈ r.problems required optional) : r.invalid.contains name = false := by
  unfold Record.problems at h
  rcases List.mem_append.1 h with h | h
  · obtain ⟨c, -, hc⟩ := List.mem_filterMap.1 h
    obtain ⟨cell, -, hcell⟩ := Option.map_eq_some_iff.1 hc
    cases hcell
  · obtain ⟨c, hc, heq⟩ := List.mem_map.1 h
    obtain rfl := Problem.missing.inj heq
    have hkeep := (List.mem_filter.1 hc).2
    rw [Bool.and_eq_true, Bool.not_eq_true'] at hkeep
    exact hkeep.1

theorem mem_problems_notNumber {r : Record} {required optional : List String} {name : String}
    {cell : Cell} (h : .notNumber name cell ∈ r.problems required optional) :
    r.invalid.get? name = some cell := by
  unfold Record.problems at h
  rcases List.mem_append.1 h with h | h
  · obtain ⟨c, -, hc⟩ := List.mem_filterMap.1 h
    obtain ⟨other, hother, heq⟩ := Option.map_eq_some_iff.1 hc
    obtain ⟨rfl, rfl⟩ := Problem.notNumber.inj heq
    exact hother
  · obtain ⟨c, -, hc⟩ := List.mem_map.1 h
    cases hc

/-- A column that is not a number is not missing. -/
theorem missing_not_mem_of_notNumber {r : Record} {required optional : List String} {name : String}
    {cell : Cell} (h : .notNumber name cell ∈ r.problems required optional) :
    .missing name ∉ r.problems required optional := by
  intro hmissing
  have hfree := mem_problems_missing hmissing
  rw [Columns.contains, mem_problems_notNumber h] at hfree
  cases hfree

/-- **Whether a chart can use a record follows from its row.** A column has a value if the row fills
it; a chart has no objection to a record if the row fills every required column and spares the
optional ones, and it never objects to a column twice. The statistics of a side are found under the
name of the side and what follows it, for any text that follows. -/
theorem usability_follows_from_row (origin : Origin) (row : Columns String) :
    let r := Record.ofRow origin row
    (∀ name, r.hasValue name = true ↔ row.Fills name) ∧
      (∀ required optional : List String,
        (r.problems required optional = [] ↔
          (∀ name ∈ required, row.Fills name) ∧
            ∀ name ∈ optional, name ∈ header → row.Spares name) ∧
        ∀ name cell, .notNumber name cell ∈ r.problems required optional →
          .missing name ∉ r.problems required optional) ∧
      ∀ (r : Record) (side : Side) (suffix : String),
        r.hasValue (side.column suffix) = (r.side side).hasValue suffix := by
  refine ⟨fun name => hasValue_ofRow, fun required optional => ⟨?_, fun name cell h => ?_⟩,
    hasValue_column⟩
  · rw [problems_eq_nil_iff]
    simp only [hasValue_ofRow, get?_invalid_ofRow_eq_none_iff, List.forall_mem_append]
    constructor
    · rintro ⟨⟨-, hoptional⟩, hrequired⟩
      exact ⟨hrequired, hoptional⟩
    · rintro ⟨hrequired, hoptional⟩
      exact ⟨⟨fun name hname _ => (hrequired name hname).spares, hoptional⟩, hrequired⟩
  · exact missing_not_mem_of_notNumber h

end SweepCharts
