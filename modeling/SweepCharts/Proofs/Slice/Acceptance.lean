import SweepCharts.Proofs.Run.ColumnOrder
import SweepCharts.Proofs.Slice.Faults

set_option autoImplicit false

/-! # Which slice sweeps are accepted

A slice sweep is accepted exactly if every record is as long as the header and, once there is a
record, every field has one column and every cell of a number writes one. Every record is a row
then. Else the first record with a fault decides, and its length counts before its cells.

* `Sheet.read_eq_ok_iff`, `Sheet.read_eq_error_iff`: one record.
* `Sheet.exists_read_iff`: the records that are accepted.
* `Tree.loadSlices_of_text`: **the files that are accepted**, their rows, and their faults.
-/

namespace SweepCharts

open Csv (Error scan)
open SliceRow (ofNamed ofNamed_eq_error_iff ofNamed_eq_ok_iff)

/-! ## The cell of a field -/

theorem SliceField.length_cellsOf {names cells : List String} (field : SliceField)
    (h : cells.length = names.length) :
    (field.cellsOf (names.zip cells)).length = names.count field.name := by
  have hnames : (names.zip cells).map Prod.fst = names := List.map_fst_zip (Nat.le_of_eq h.symm)
  conv_rhs => rw [← hnames, List.count, List.countP_map]
  rw [cellsOf, List.length_map, ← List.countP_eq_length_filter]
  congr 1

theorem SliceField.mem_cellsOf {columns : List (String × String)} {field : SliceField}
    {cell : String} : cell ∈ field.cellsOf columns ↔ (field.name, cell) ∈ columns := by
  simp [cellsOf]

/-- A field has one cell if it has one column. -/
theorem SliceField.cellsOf_eq_singleton_iff {names cells : List String} {field : SliceField}
    (h : cells.length = names.length) {cell : String} :
    field.cellsOf (names.zip cells) = [cell] ↔
      names.count field.name = 1 ∧ (field.name, cell) ∈ names.zip cells := by
  rw [← field.length_cellsOf h, ← mem_cellsOf]
  constructor
  · intro hone
    rw [hone]
    exact ⟨rfl, .head _⟩
  · rintro ⟨hlength, hmem⟩
    obtain ⟨other, hother⟩ := List.length_eq_one_iff.1 hlength
    rw [hother, List.mem_singleton] at hmem
    rw [hother, hmem]

namespace Sheet

/-! ## One record -/

/-- A record whose cells fill the fields of a row. -/
def Holds (s : Sheet) (entry : Entry) (row : SliceRow) : Prop :=
  ∀ field : SliceField, ∃ cell, (field.name, cell) ∈ s.names.zip entry.cells ∧
    field.Takes cell (row.value field)

/-- What is wrong with a record: its length, or else its cells. -/
inductive EntryFault (s : Sheet) (entry : Entry) : Error → Prop
  | length (differs : entry.cells.length ≠ s.names.length) :
      EntryFault s entry (.length entry.position entry.cells.length s.names.length)
  | cell {fault : Csv.CellFault} (length_eq : entry.cells.length = s.names.length)
      (record : RecordFault (s.names.zip entry.cells) fault) :
      EntryFault s entry (.cell entry.position fault)

variable {s : Sheet} {entry : Entry}

theorem read_eq_error_iff {cause : Error} :
    s.read entry = .error cause ↔ s.EntryFault entry cause := by
  unfold read
  by_cases hlength : entry.cells.length = s.names.length
  · rw [if_pos hlength, mapError_eq_error]
    constructor
    · rintro ⟨fault, hfault, rfl⟩
      exact .cell hlength (ofNamed_eq_error_iff.1 hfault)
    · rintro (hdiffers | ⟨-, hfault⟩)
      · exact absurd hlength hdiffers
      · exact ⟨_, ofNamed_eq_error_iff.2 hfault, rfl⟩
  · rw [if_neg hlength]
    constructor
    · rintro ⟨⟩
      exact .length hlength
    · rintro (- | ⟨hequal, -⟩)
      · rfl
      · exact absurd hequal hlength

theorem read_eq_ok_iff {row : SliceRow} :
    s.read entry = .ok row ↔ entry.cells.length = s.names.length ∧
      (∀ field : SliceField, s.names.count field.name = 1) ∧ s.Holds entry row := by
  unfold read
  by_cases hlength : entry.cells.length = s.names.length
  · rw [if_pos hlength, mapError_eq_ok, ofNamed_eq_ok_iff]
    simp only [List.map_eq_singleton_iff, SliceField.cellsOf_eq_singleton_iff hlength,
      SliceField.convert_eq_some_iff]
    constructor
    · intro h
      refine ⟨hlength, fun field => ?_, fun field => ?_⟩
      · obtain ⟨cell, ⟨hcount, -⟩, -⟩ := h field
        exact hcount
      · obtain ⟨cell, ⟨-, hmem⟩, htakes⟩ := h field
        exact ⟨cell, hmem, htakes⟩
    · rintro ⟨-, hcount, hholds⟩ field
      obtain ⟨cell, hmem, htakes⟩ := hholds field
      exact ⟨cell, ⟨hcount field, hmem⟩, htakes⟩
  · rw [if_neg hlength]
    exact iff_of_false nofun fun h => hlength h.1

/-- A record whose cells of numbers write doubles. -/
def HasNumbers (s : Sheet) (entry : Entry) : Prop :=
  ∀ field : SliceField, field ≠ .mode → ∀ cell, (field.name, cell) ∈ s.names.zip entry.cells →
    ∃ x, WritesDouble cell.toList x

/-- Where a field has one column, a cell under its name is the one that fills it. -/
theorem Holds.takes {row : SliceRow} {field : SliceField} {cell : String} (h : s.Holds entry row)
    (hlength : entry.cells.length = s.names.length) (hcount : s.names.count field.name = 1)
    (hmem : (field.name, cell) ∈ s.names.zip entry.cells) :
    field.Takes cell (row.value field) := by
  obtain ⟨other, hother, htakes⟩ := h field
  have hone := (SliceField.cellsOf_eq_singleton_iff hlength).2 ⟨hcount, hother⟩
  have hcell := SliceField.mem_cellsOf.2 hmem
  rw [hone, List.mem_singleton] at hcell
  rwa [hcell]

theorem Holds.hasNumbers {row : SliceRow} (hlength : entry.cells.length = s.names.length)
    (hcount : ∀ field : SliceField, s.names.count field.name = 1) (h : s.Holds entry row) :
    s.HasNumbers entry := by
  intro field hfield cell hmem
  obtain ⟨x, hx, -⟩ := (h.takes hlength (hcount field) hmem).exists_double hfield
  exact ⟨x, hx⟩

theorem exists_holds (hlength : entry.cells.length = s.names.length)
    (hcount : ∀ field : SliceField, s.names.count field.name = 1) (h : s.HasNumbers entry) :
    ∃ row, s.Holds entry row := by
  have hcell (field : SliceField) : ∃ cell, (field.name, cell) ∈ s.names.zip entry.cells := by
    obtain ⟨cell, hcell⟩ := List.length_eq_one_iff.1
      ((field.length_cellsOf hlength).trans (hcount field))
    exact ⟨cell, SliceField.mem_cellsOf.1 (by rw [hcell]; exact .head _)⟩
  have hnumber (field : SliceField) (hfield : field ≠ .mode) :
      ∃ x cell, (field.name, cell) ∈ s.names.zip entry.cells ∧ field.Takes cell (.float x) := by
    obtain ⟨cell, hmem⟩ := hcell field
    obtain ⟨x, hx⟩ := h field hfield cell hmem
    exact ⟨x, cell, hmem, .number hfield hx⟩
  obtain ⟨mode, hmode⟩ := hcell .mode
  obtain ⟨size, hsize⟩ := hnumber .sliceSize nofun
  obtain ⟨throughput, hthroughput⟩ := hnumber .throughput nofun
  obtain ⟨gc, hgc⟩ := hnumber .gc nofun
  obtain ⟨delay, hdelay⟩ := hnumber .p99Delay nofun
  refine ⟨⟨mode, size, throughput, gc, delay⟩, fun field => ?_⟩
  cases field with
  | mode => exact ⟨mode, hmode, .mode⟩
  | sliceSize => exact hsize
  | throughput => exact hthroughput
  | gc => exact hgc
  | p99Delay => exact hdelay

/-- **The records that are accepted.** -/
theorem exists_read_iff : (∃ row, s.read entry = .ok row) ↔
    entry.cells.length = s.names.length ∧
      (∀ field : SliceField, s.names.count field.name = 1) ∧ s.HasNumbers entry := by
  simp only [read_eq_ok_iff]
  constructor
  · rintro ⟨row, hlength, hcount, hholds⟩
    exact ⟨hlength, hcount, hholds.hasNumbers hlength hcount⟩
  · rintro ⟨hlength, hcount, hnumbers⟩
    obtain ⟨row, hrow⟩ := exists_holds hlength hcount hnumbers
    exact ⟨row, hlength, hcount, hrow⟩

/-! ## All records -/

/-- A table whose records are as long as the header; once there is one, every field has one column,
and the cells of numbers write doubles. -/
structure WellFormed (s : Sheet) : Prop where
  lengths : ∀ entry ∈ s.entries, entry.cells.length = s.names.length
  names : s.entries ≠ [] → ∀ field : SliceField, s.names.count field.name = 1
  numbers : ∀ entry ∈ s.entries, s.HasNumbers entry

/-- The fault of a table: the one of the first record that has any, by the number of that record. -/
def FirstFault (s : Sheet) (cause : Error) : Prop :=
  ∃ before entry after, s.entries = before ++ entry :: after ∧
    (∀ other ∈ before, ∀ e, ¬ s.EntryFault other e) ∧ s.EntryFault entry cause ∧
      entry.position.record = before.length + 1

theorem exists_mapM_read_iff :
    (∃ rows, s.entries.mapM s.read = .ok rows) ↔ s.WellFormed := by
  constructor
  · rintro ⟨rows, hrows⟩
    have hread : ∀ entry ∈ s.entries, ∃ row, s.read entry = .ok row := by
      intro entry hentry
      obtain ⟨row, -, hrow⟩ := exists_of_forall₂ (mapM_eq_ok_iff.1 hrows) entry hentry
      exact ⟨row, hrow⟩
    refine ⟨fun entry hentry => (exists_read_iff.1 (hread entry hentry)).1, fun hne => ?_,
      fun entry hentry => (exists_read_iff.1 (hread entry hentry)).2.2⟩
    obtain ⟨entry, hentry⟩ := List.exists_mem_of_ne_nil _ hne
    exact (exists_read_iff.1 (hread entry hentry)).2.1
  · intro h
    exact exists_mapM_eq_ok fun entry hentry => exists_read_iff.2
      ⟨h.lengths entry hentry, h.names (List.ne_nil_of_mem hentry), h.numbers entry hentry⟩

theorem mapM_read_eq_ok_iff {rows : List SliceRow} :
    s.entries.mapM s.read = .ok rows ↔ s.WellFormed ∧ List.Forall₂ s.Holds s.entries rows := by
  constructor
  · intro h
    exact ⟨exists_mapM_read_iff.1 ⟨rows, h⟩,
      (mapM_eq_ok_iff.1 h).imp fun entry row hrow => (read_eq_ok_iff.1 hrow).2.2⟩
  · rintro ⟨hwell, hholds⟩
    refine mapM_eq_ok_iff.2 ((forall₂_with_mem hholds).imp fun entry row ⟨hentry, hrow⟩ => ?_)
    exact read_eq_ok_iff.2 ⟨hwell.lengths entry hentry,
      hwell.names (List.ne_nil_of_mem hentry), hrow⟩

theorem IsOf.record_eq {bytes : List UInt8} (h : s.IsOf (scan bytes)) {before after : List Entry}
    (hentries : s.entries = before ++ entry :: after) :
    entry.position.record = before.length + 1 := by
  have hrecords := congrArg (·[before.length]?) h.map_record
  rw [hentries] at hrecords
  simpa [Nat.add_comm] using hrecords

theorem mapM_read_eq_error_iff {bytes : List UInt8} (h : s.IsOf (scan bytes)) {cause : Error} :
    s.entries.mapM s.read = .error cause ↔ s.FirstFault cause := by
  have hread (entry : Entry) :
      (∃ row, s.read entry = .ok row) ↔ ∀ e, ¬ s.EntryFault entry e := by
    simp only [← read_eq_error_iff]
    cases s.read entry <;> simp
  simp only [mapM_eq_error_iff, hread, read_eq_error_iff]
  constructor
  · rintro ⟨before, entry, after, hentries, hbefore, hfault⟩
    exact ⟨before, entry, after, hentries, hbefore, hfault, h.record_eq hentries⟩
  · rintro ⟨before, entry, after, hentries, hbefore, hfault, -⟩
    exact ⟨before, entry, after, hentries, hbefore, hfault⟩

end Sheet

namespace Tree

theorem loadSlices_of_sheet {t : Tree} {path : String} {content : List UInt8} {s : Sheet}
    (hopen : t.open path = .ok (.file content)) (hs : s.IsOf (scan content)) :
    t.loadSlices path = (s.entries.mapM s.read).mapError (.malformed path) := by
  rw [loadSlices_of_file hopen, Sheet.readTable_eq hs]

/-- **The slice sweeps that are accepted.** A file of text is a sheet. It has rows exactly if every
record is as long as the header and, once there is a record, every field has one column and the
cells of numbers write doubles. Then every record is a row, in the order of the records. Else the
error names the file and the first record with a fault, where the length counts before the cells,
the leftmost column at fault before the others, and a field without a column only after all
columns. -/
theorem loadSlices_of_text {t : Tree} {path : String} {content : List UInt8}
    (hopen : t.open path = .ok (.file content)) (htext : Utf8.IsText content) :
    (∃ s : Sheet, s.IsOf (scan content)) ∧ ∀ s : Sheet, s.IsOf (scan content) →
      ((∃ rows, t.loadSlices path = .ok rows) ↔ s.WellFormed) ∧
      (∀ rows, t.loadSlices path = .ok rows ↔
        s.WellFormed ∧ List.Forall₂ s.Holds s.entries rows) ∧
      ∀ e, t.loadSlices path = .error e ↔ ∃ cause, e = .malformed path cause ∧
        s.FirstFault cause := by
  refine ⟨Sheet.exists_isOf htext, fun s hs => ?_⟩
  rw [loadSlices_of_sheet hopen hs]
  simp only [mapError_eq_ok, mapError_eq_error]
  refine ⟨Sheet.exists_mapM_read_iff, fun rows => Sheet.mapM_read_eq_ok_iff, fun e => ?_⟩
  simp only [Sheet.mapM_read_eq_error_iff hs, and_comm]

/-- Blanks around names and numbers, and a word for infinity, are accepted. Of two cells that are no
numbers the left one is the fault, in the second record. -/
theorem loadSlices_of_text_spaced :
    let spaced := Utf8.encode
      " mode,slice_size,gc_ms,throughput_msg_s ,p99_delay_ms\nts-server, 1 ,.5,\u00a0-Inf,4e0\n"
    let torn := Utf8.encode
      "mode,slice_size,throughput_msg_s,gc_ms,p99_delay_ms\nts-server,1,2,3,4\na,1,x,,4\n"
    let t : Tree := ⟨[(["spaced.csv"], .file spaced), (["torn.csv"], .file torn)], [], by decide⟩
    (t.open "spaced.csv" = .ok (.file spaced) ∧ Utf8.IsText spaced ∧
      ∃ s : Sheet, s.IsOf (scan spaced) ∧ s.WellFormed) ∧
    t.open "torn.csv" = .ok (.file torn) ∧ Utf8.IsText torn ∧
      ∃ s : Sheet, s.IsOf (scan torn) ∧ ¬ s.WellFormed ∧
        s.FirstFault (.cell ⟨3, 70, 2⟩ (.badNumber 2)) := by
  intro spaced torn t
  have hspaced : t.open "spaced.csv" = .ok (.file spaced) := by decide +kernel
  have htorn : t.open "torn.csv" = .ok (.file torn) := by decide +kernel
  have hrow : t.loadSlices "spaced.csv" = .ok [⟨"ts-server", Binary64.ofInt 1,
      Binary64.ofMagnitudeBits true Binary64.infinityBits, Binary64.ofQuotient false 1 2,
      Binary64.ofInt 4⟩] := by decide +kernel
  have herror : t.loadSlices "torn.csv" =
      .error (.malformed "torn.csv" (.cell ⟨3, 70, 2⟩ (.badNumber 2))) := by decide +kernel
  obtain ⟨⟨s, hs⟩, haccepted⟩ := loadSlices_of_text hspaced ⟨_, rfl⟩
  obtain ⟨⟨u, hu⟩, hrejected⟩ := loadSlices_of_text htorn ⟨_, rfl⟩
  refine ⟨⟨hspaced, ⟨_, rfl⟩, s, hs, (haccepted s hs).1.1 ⟨_, hrow⟩⟩, htorn, ⟨_, rfl⟩, u, hu,
    fun hwell => ?_, ?_⟩
  · obtain ⟨rows, hrows⟩ := (hrejected u hu).1.2 hwell
    rw [herror] at hrows
    cases hrows
  · obtain ⟨cause, heq, hfault⟩ := ((hrejected u hu).2.2 _).1 herror
    obtain ⟨-, rfl⟩ := LoadError.malformed.inj heq
    exact hfault

end Tree

end SweepCharts
