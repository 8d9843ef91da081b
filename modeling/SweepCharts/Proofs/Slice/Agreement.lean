import SweepCharts.Chart.Slice
import SweepCharts.Proofs.Slice.Acceptance

set_option autoImplicit false

/-! # Numbers in slice sweeps and in sweeps

The records of a sweep are coerced: a cell is an integer of 64 bits or a finite double, or it is
text. A slice sweep reads its numbers as doubles at once. The two differ in one way: a slice sweep
also takes the words for infinity and NaN and decimals that overflow, and such a cell ends up in
the chart as a coordinate that is not finite. Every other cell is a number in both or in neither,
and the same number.

* `SliceRow.plots_chart_iff`: the coordinates of the chart.
* `Tree.slice_numbers_against_cells`: **what differs**, for whole files and their charts.
* `Tree.not_slice_numbers_coerced`: an infinity that is taken and plotted.
-/

namespace SweepCharts

open Csv (scan)
open SliceRow (nativeServer ofMode tsServer)

/-! ## The coordinates of a chart -/

/-- Whether a number is a coordinate of a point of a chart. -/
def Chart.Plots (c : Chart) (x : Binary64) : Prop :=
  ∃ series ∈ c.series, ∃ point ∈ series.coordinates, x ∈ point

theorem SliceRow.exists_mem_points_iff {value : SliceRow → Binary64} {rows : List SliceRow}
    {x : Binary64} : (∃ point ∈ points value rows, x ∈ point) ↔
      ∃ row ∈ rows, x = row.sliceSize ∨ x = value row := by
  simp [points]

theorem SliceRow.exists_value_eq_float_iff {row : SliceRow} {x : Binary64} :
    (∃ field, row.value field = .float x) ↔
      x = row.sliceSize ∨ x = row.throughput ∨ x = row.gc ∨ x = row.p99Delay := by
  constructor
  · rintro ⟨field, h⟩
    cases field with
    | mode => cases h
    | sliceSize => exact .inl (Cell.float.inj h).symm
    | throughput => exact .inr (.inl (Cell.float.inj h).symm)
    | gc => exact .inr (.inr (.inl (Cell.float.inj h).symm))
    | p99Delay => exact .inr (.inr (.inr (Cell.float.inj h).symm))
  · rintro (rfl | rfl | rfl | rfl)
    · exact ⟨.sliceSize, rfl⟩
    · exact ⟨.throughput, rfl⟩
    · exact ⟨.gc, rfl⟩
    · exact ⟨.p99Delay, rfl⟩

/-- **The coordinates of the chart** are the numbers of the rows of both servers. -/
theorem SliceRow.plots_chart_iff {rows : List SliceRow} {dark : Bool} {x : Binary64} :
    (chart rows dark).Plots x ↔ ∃ row ∈ rows, (row.mode = tsServer ∨ row.mode = nativeServer) ∧
      ∃ field, row.value field = .float x := by
  have hseries : (chart rows dark).series =
      [.line "TS Throughput" (points throughput (ofMode tsServer rows)) .circle "#0000ff" 0,
       .line "Native Throughput" (points throughput (ofMode nativeServer rows)) .rect "#008000" 0,
       .line "TS GC ms" (points gc (ofMode tsServer rows)) .circle "#ff0000" 1,
       .line "Native GC ms" (points gc (ofMode nativeServer rows)) .rect "#ffa500" 1,
       .scatter "TS p99 Delay" (points p99Delay (ofMode tsServer rows)) "#800080",
       .scatter "Native p99 Delay" (points p99Delay (ofMode nativeServer rows)) "#ff00ff"] := rfl
  have hserver (server : String) (value : SliceRow → Binary64) :
      (∃ point ∈ points value (ofMode server rows), x ∈ point) ↔
        ∃ row ∈ rows, row.mode = server ∧ (x = row.sliceSize ∨ x = value row) := by
    simp only [exists_mem_points_iff, ofMode, List.mem_filter, decide_eq_true_eq, and_assoc]
  unfold Chart.Plots
  rw [hseries]
  simp only [List.exists_mem_cons_iff, List.not_mem_nil, false_and, exists_false, or_false,
    Series.coordinates, hserver, exists_value_eq_float_iff]
  clear hseries hserver
  constructor
  · grind
  · grind

/-! ## The cells of a sheet -/

theorem Trims.self {raw text : String} (h : Trims raw text.toList) : Trims text text.toList :=
  ⟨⟨[], [], by rw [List.nil_append, List.append_nil], List.forall_mem_nil _,
    List.forall_mem_nil _⟩, h.first, h.last⟩

namespace Sheet

variable {s : Sheet}

/-- A sheet where every record is as long as the header and every field has one column. -/
structure HasColumns (s : Sheet) : Prop where
  lengths : ∀ entry ∈ s.entries, entry.cells.length = s.names.length
  names : ∀ field : SliceField, s.names.count field.name = 1

/-- A cell of a record in the column of a number. -/
def IsNumberCell (s : Sheet) (entry : Entry) (cell : String) : Prop :=
  ∃ field : SliceField, field ≠ .mode ∧ (field.name, cell) ∈ s.names.zip entry.cells

theorem HasColumns.wellFormed_iff (h : s.HasColumns) : s.WellFormed ↔
    ∀ entry ∈ s.entries, ∀ cell, s.IsNumberCell entry cell → ∃ x, WritesDouble cell.toList x := by
  constructor
  · rintro hwell entry hentry cell ⟨field, hfield, hmem⟩
    exact hwell.numbers entry hentry field hfield cell hmem
  · intro hnumbers
    exact ⟨h.lengths, fun _ => h.names, fun entry hentry field hfield cell hmem =>
      hnumbers entry hentry cell ⟨field, hfield, hmem⟩⟩

theorem IsOf.trims_cell {records : List Csv.Row} (h : s.IsOf records) {entry : Entry}
    (hentry : entry ∈ s.entries) {cell : String} (hcell : cell ∈ entry.cells) :
    Trims cell cell.toList := by
  cases h with
  | empty => exact absurd hentry List.not_mem_nil
  | table _ hentries =>
    obtain ⟨row, -, hrow⟩ := exists_of_forall₂ hentries.flip entry hentry
    obtain ⟨bytes, -, whole, -, htrims⟩ := exists_of_forall₂ hrow.cells.flip cell hcell
    exact htrims.self

theorem IsNumberCell.trims {records : List Csv.Row} (h : s.IsOf records) {entry : Entry}
    (hentry : entry ∈ s.entries) {cell : String} (hcell : s.IsNumberCell entry cell) :
    Trims cell cell.toList := by
  obtain ⟨field, -, hmem⟩ := hcell
  exact h.trims_cell hentry (List.of_mem_zip hmem).2

/-- The number of a field and the cell that it was read from. -/
def Agrees (cell : String) (x : Binary64) : Prop :=
  (∀ y, (Cell.ofText cell).toFloat? = some y → x.SameNumber y) ∧
    (x.isFinite = false ↔ WritesNonFinite cell.toList)

/-- A record of either server with a cell whose double is not finite. -/
def HasNonFinite (s : Sheet) (entry : Entry) : Prop :=
  (∃ mode, (SliceField.mode.name, mode) ∈ s.names.zip entry.cells ∧
      (mode = tsServer ∨ mode = nativeServer)) ∧
    ∃ cell, s.IsNumberCell entry cell ∧ WritesNonFinite cell.toList

theorem HasColumns.exists_nonFinite_iff (h : s.HasColumns) {entry : Entry} {row : SliceRow}
    (hentry : entry ∈ s.entries) (hrow : s.Holds entry row) :
    ((row.mode = tsServer ∨ row.mode = nativeServer) ∧
        ∃ x, (∃ field, row.value field = .float x) ∧ x.isFinite = false) ↔
      s.HasNonFinite entry := by
  have hlength := h.lengths entry hentry
  have hmode (mode : String) :
      (SliceField.mode.name, mode) ∈ s.names.zip entry.cells ↔ row.mode = mode := by
    constructor
    · intro hmem
      cases hrow.takes hlength (h.names .mode) hmem with
      | mode => rfl
    · rintro rfl
      obtain ⟨cell, hmem, htakes⟩ := hrow .mode
      cases htakes with
      | mode => exact hmem
  constructor
  · rintro ⟨hserver, x, ⟨field, hvalue⟩, hinfinite⟩
    have hfield : field ≠ .mode := by
      rintro rfl
      cases hvalue
    obtain ⟨cell, hmem, htakes⟩ := hrow field
    obtain ⟨y, hy, heq⟩ := htakes.exists_double hfield
    obtain rfl := Cell.float.inj (hvalue.symm.trans heq)
    exact ⟨⟨row.mode, (hmode _).2 rfl, hserver⟩, cell, ⟨field, hfield, hmem⟩,
      hy.isFinite_eq_false_iff.1 hinfinite⟩
  · rintro ⟨⟨mode, hmem, hserver⟩, cell, ⟨field, hfield, hcell⟩, hnonfinite⟩
    obtain rfl := (hmode mode).1 hmem
    obtain ⟨x, hx, hvalue⟩ := (hrow.takes hlength (h.names field) hcell).exists_double hfield
    exact ⟨hserver, x, ⟨field, hvalue⟩, hx.isFinite_eq_false_iff.2 hnonfinite⟩

end Sheet

namespace Tree

/-- **What a slice sweep takes for a number, against a sweep.** Take a table whose records are as
long as the header and whose fields have one column each. It is accepted exactly if every cell of a
number is coerced to a number or writes a double that is not finite. Where a cell is coerced to a
number, the row has the same number; the number is not finite exactly if the cell writes none that
is. The chart has a coordinate that is not finite exactly if a record of either server has such a
cell. Coercion does not see blanks at the ends of a cell. -/
theorem slice_numbers_against_cells {t : Tree} {path : String} {content : List UInt8} {s : Sheet}
    (hopen : t.open path = .ok (.file content)) (hs : s.IsOf (scan content))
    (hcolumns : s.HasColumns) :
    (∀ whole cell : String, Trims whole cell.toList →
      (Cell.ofText cell).toFloat? = (Cell.ofText whole).toFloat?) ∧
    ((∃ rows, t.loadSlices path = .ok rows) ↔
      ∀ entry ∈ s.entries, ∀ cell, s.IsNumberCell entry cell →
        (Cell.ofText cell).toFloat?.isSome = true ∨ WritesNonFinite cell.toList) ∧
    ∀ rows, t.loadSlices path = .ok rows →
      List.Forall₂ (fun entry row => ∀ field : SliceField, field ≠ .mode → ∃ cell x,
        (field.name, cell) ∈ s.names.zip entry.cells ∧ row.value field = .float x ∧
          Sheet.Agrees cell x) s.entries rows ∧
      ∀ dark, (∃ x, (SliceRow.chart rows dark).Plots x ∧ x.isFinite = false) ↔
        ∃ entry ∈ s.entries, s.HasNonFinite entry := by
  rw [loadSlices_of_sheet hopen hs]
  simp only [mapError_eq_ok]
  refine ⟨fun whole cell htrims => toFloat?_ofText_eq htrims.self htrims, ?_, fun rows hrows => ?_⟩
  · rw [Sheet.exists_mapM_read_iff, hcolumns.wellFormed_iff]
    refine forall₂_congr fun entry hentry => forall₂_congr fun cell hcell => ?_
    exact exists_writesDouble_iff (hcell.trims hs hentry)
  · have hrecords := forall₂_with_mem (Sheet.mapM_read_eq_ok_iff.1 hrows).2
    refine ⟨hrecords.imp ?_, fun dark => ?_⟩
    · rintro entry row ⟨hentry, hrow⟩ field hfield
      obtain ⟨cell, hmem, htakes⟩ := hrow field
      obtain ⟨x, hx, hvalue⟩ := htakes.exists_double hfield
      have htrims : Trims cell cell.toList := hs.trims_cell hentry (List.of_mem_zip hmem).2
      exact ⟨cell, x, hmem, hvalue, fun y hy => hx.sameNumber htrims hy, hx.isFinite_eq_false_iff⟩
    · simp only [SliceRow.plots_chart_iff]
      constructor
      · rintro ⟨x, ⟨row, hrow, hserver, hvalue⟩, hinfinite⟩
        obtain ⟨entry, -, hentry, hholds⟩ := exists_of_forall₂ hrecords.flip row hrow
        exact ⟨entry, hentry, (hcolumns.exists_nonFinite_iff hentry hholds).1
          ⟨hserver, x, hvalue, hinfinite⟩⟩
      · rintro ⟨entry, hentry, hnonfinite⟩
        obtain ⟨row, hrow, -, hholds⟩ := exists_of_forall₂ hrecords entry hentry
        obtain ⟨hserver, x, hvalue, hinfinite⟩ :=
          (hcolumns.exists_nonFinite_iff hentry hholds).2 hnonfinite
        exact ⟨x, ⟨row, hrow, hserver, hvalue⟩, hinfinite⟩

/-- A decimal that overflows, beside a negative zero. -/
theorem slice_numbers_against_cells_overflow :
    let names := ["mode", "slice_size", "throughput_msg_s", "gc_ms", "p99_delay_ms"]
    let cells := ["ts-server", "-0", "1e400", "3", "4.5"]
    let content := Utf8.encode
      "mode,slice_size,throughput_msg_s,gc_ms,p99_delay_ms\nts-server,-0,1e400,3,4.5\n"
    let s : Sheet := ⟨names, [⟨⟨2, 52, 1⟩, cells⟩]⟩
    let t : Tree := ⟨[(["s.csv"], .file content)], [], by decide⟩
    t.open "s.csv" = .ok (.file content) ∧ s.IsOf (scan content) ∧ s.HasColumns ∧
      ∃ entry ∈ s.entries, s.HasNonFinite entry := by
  intro names cells content s t
  have hopen : t.open "s.csv" = .ok (.file content) := by decide +kernel
  have hscan : scan content =
      [⟨.first, names.map Utf8.encode⟩, ⟨⟨2, 52, 1⟩, cells.map Utf8.encode⟩] := by decide +kernel
  have htexts (texts : List String) (h : ∀ text ∈ texts, trimmed text = text.toList) :
      List.Forall₂ ShowsText (texts.map Utf8.encode) texts :=
    List.forall₂_map_left_iff.2 (List.forall₂_same.2 fun text htext =>
      ⟨text, rfl, trims_iff.2 (h text htext)⟩)
  have hs : s.IsOf (scan content) := by
    rw [hscan]
    exact .table (htexts names (by decide +kernel))
      (.cons ⟨rfl, htexts cells (by decide +kernel)⟩ .nil)
  have hcolumns : s.HasColumns := ⟨by decide, fun field => by cases field <;> decide⟩
  let infinite := Binary64.ofMagnitudeBits false Binary64.infinityBits
  have hrows : t.loadSlices "s.csv" = .ok [⟨"ts-server", Binary64.ofMagnitudeBits true 0, infinite,
      Binary64.ofInt 3, Binary64.ofQuotient false 9 2⟩] := by decide +kernel
  refine ⟨hopen, hs, hcolumns,
    (((slice_numbers_against_cells hopen hs hcolumns).2.2 _ hrows).2 false).1
      ⟨infinite, SliceRow.plots_chart_iff.2 ⟨_, .head _, .inl rfl, .throughput, rfl⟩,
        by decide +kernel⟩⟩

/-- **Not every number of a slice sweep is one in a sweep.** With an infinity in place of a number a
table is still accepted, and its chart plots the infinity, although the cell is coerced to text. -/
theorem not_slice_numbers_coerced :
    let content (cell : String) : List UInt8 := Utf8.encode
      ("mode,slice_size,throughput_msg_s,gc_ms,p99_delay_ms\nts-server,1," ++ cell ++ ",3,4\n")
    let t : Tree := ⟨[(["number.csv"], .file (content "2")), (["word.csv"], .file (content "inf"))],
      [], by decide⟩
    let row (throughput : Binary64) : SliceRow :=
      ⟨"ts-server", Binary64.ofInt 1, throughput, Binary64.ofInt 3, Binary64.ofInt 4⟩
    let infinite := Binary64.ofMagnitudeBits false Binary64.infinityBits
    t.loadSlices "number.csv" = .ok [row (Binary64.ofInt 2)] ∧
      Cell.ofText "inf" = .text "inf" ∧ t.loadSlices "word.csv" = .ok [row infinite] ∧
        (SliceRow.chart [row infinite] false).Plots infinite ∧ infinite.isFinite = false := by
  intro content t row infinite
  exact ⟨by decide +kernel, by decide +kernel, by decide +kernel,
    SliceRow.plots_chart_iff.2 ⟨_, .head _, .inl rfl, .throughput, rfl⟩, by decide +kernel⟩

end Tree

end SweepCharts
