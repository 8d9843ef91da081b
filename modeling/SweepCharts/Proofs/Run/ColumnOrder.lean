import SweepCharts.Proofs.Csv.ColumnOrder
import SweepCharts.Proofs.Run.Loading
import SweepCharts.Proofs.Slice.ColumnOrder

set_option autoImplicit false

/-! # Files with their columns in another order

Both loaders find a column by its name, so that its place is of no account. A slice sweep is read by
position where its header is not text, and fails on any cell that is not.

* `column_order_is_free`: the records and the slices of a file, by its columns in any order.
* `column_order_counts_without_text`: it does not hold of slices without these two conditions.
-/

namespace SweepCharts

open Csv (Arrangement Arranges Ending WrittenCell WrittenRecord WrittenTable lineFeed scan)
open SliceRow (HasTextHeader IsReadable Rearranges)

theorem readRows_of_arranges {a : Arrangement} {names : List String} {bytes moved : List UInt8}
    {file : String} {rows : List SourceRow} (harranges : Arranges a names bytes moved)
    (h : readRows file bytes = .ok rows) : readRows file moved = .ok rows := by
  obtain ⟨lines, hlines, rfl⟩ := map_eq_ok.1 h
  exact map_eq_ok.2 ⟨lines, Csv.readTable_of_arranges harranges hlines, rfl⟩

namespace Tree

variable {t u : Tree}

theorem loadFile_of_arranges {path : String} {a : Arrangement} {names : List String}
    {content moved : List UInt8} {records : List Record} (ht : t.open path = .ok (.file content))
    (hu : u.open path = .ok (.file moved)) (harranges : Arranges a names content moved)
    (h : t.loadFile path = .ok records) : u.loadFile path = .ok records := by
  unfold loadFile at h ⊢
  simp only [readFile_of_file ht, readFile_of_file hu, map_eq_ok, mapError_eq_ok] at h ⊢
  obtain ⟨rows, hrows, rfl⟩ := h
  exact ⟨rows, readRows_of_arranges harranges hrows, rfl⟩

/-- The records of a list of files, when every file has its columns in another order. -/
theorem loadRecords_of_arranges {paths : List String} {records : List Record}
    (hfiles : ∀ path ∈ paths, ∃ a names content moved, t.open path = .ok (.file content) ∧
      u.open path = .ok (.file moved) ∧ Arranges a names content moved)
    (h : t.loadRecords paths = .ok records) : u.loadRecords paths = .ok records := by
  rw [loadRecords_eq, map_eq_ok] at h ⊢
  obtain ⟨parts, hparts, rfl⟩ := h
  refine ⟨parts, ?_, rfl⟩
  have hsame : List.Forall₂ (fun path other => path ∈ paths ∧ other = path) paths paths :=
    List.forall₂_same.2 fun path hpath => ⟨hpath, rfl⟩
  refine mapM_eq_ok_of_forall₂ hsame hparts fun path other part ⟨hpath, hother⟩ hpart => ?_
  obtain ⟨a, names, content, moved, ht, hu, harranges⟩ := hfiles path hpath
  rw [hother]
  exact loadFile_of_arranges ht hu harranges hpart

theorem exists_loadRecords_written {paths : List String}
    (hfiles : ∀ path ∈ paths, ∃ table : WrittenTable, t.open path = .ok (.file table.bytes)) :
    ∃ records, t.loadRecords paths = .ok records := by
  have hfile : ∀ path ∈ paths, ∃ records, t.loadFile path = .ok records := by
    intro path hpath
    obtain ⟨table, hopen⟩ := hfiles path hpath
    obtain ⟨lines, hlines, -⟩ := Csv.exists_readTable table
    unfold loadFile
    rw [readFile_of_file hopen, readRows, hlines]
    exact ⟨_, rfl⟩
  obtain ⟨parts, hparts⟩ := exists_mapM_eq_ok hfile
  exact ⟨parts.flatten, by rw [loadRecords_eq, hparts]; rfl⟩

theorem loadSlices_of_file {path : String} {content : List UInt8}
    (h : t.open path = .ok (.file content)) :
    t.loadSlices path = (SliceRow.readTable content).mapError (.malformed path) := by
  rw [loadSlices, openSource, h]
  rfl

/-- **Column order does not matter to either loader.** Tables whose columns have different names and
whose records have a cell for each give the same records, with the same origins, when every file has
its columns in another order; whatever is written as such a table loads. The first part is about any
bytes, and that the records are on the same lines is part of `Arranges` (`Row.Arranged.line`); the
second part proves it, for written tables. A slice sweep whose header is text gives the same rows,
also with further columns of text anywhere. -/
theorem column_order_is_free :
    (∀ (t u : Tree) (paths : List String) (records : List Record),
      (∀ path ∈ paths, ∃ a names content moved, t.open path = .ok (.file content) ∧
        u.open path = .ok (.file moved) ∧ Arranges a names content moved) →
      t.loadRecords paths = .ok records → u.loadRecords paths = .ok records) ∧
    (∀ (t u : Tree) (paths : List String),
      (∀ path ∈ paths, ∃ (a : Arrangement) (table moved : WrittenTable),
        t.open path = .ok (.file table.bytes) ∧ u.open path = .ok (.file moved.bytes) ∧
        table.Permutes a moved ∧ table.header.texts.Nodup) →
      ∃ records, t.loadRecords paths = .ok records ∧ u.loadRecords paths = .ok records) ∧
    ∀ (t u : Tree) (path : String) (a : Arrangement) (content moved : List UInt8)
      (rows : List SliceRow), t.open path = .ok (.file content) →
      u.open path = .ok (.file moved) → HasTextHeader content →
      Rearranges a IsReadable (scan content) (scan moved) →
      t.loadSlices path = .ok rows → u.loadSlices path = .ok rows := by
  refine ⟨fun t u paths records hfiles => loadRecords_of_arranges hfiles, ?_, ?_⟩
  · intro t u paths hfiles
    have hwritten : ∀ path ∈ paths, ∃ table : WrittenTable,
        t.open path = .ok (.file table.bytes) := by
      intro path hpath
      obtain ⟨a, table, moved, ht, -⟩ := hfiles path hpath
      exact ⟨table, ht⟩
    obtain ⟨records, hrecords⟩ := exists_loadRecords_written hwritten
    refine ⟨records, hrecords, loadRecords_of_arranges (t := t) ?_ hrecords⟩
    intro path hpath
    obtain ⟨a, table, moved, ht, hu, hpermutes, hdistinct⟩ := hfiles path hpath
    exact ⟨a, table.header.texts, table.bytes, moved.bytes, ht, hu, hpermutes.arranges hdistinct⟩
  · intro t u path a content moved rows ht hu hheader hrows h
    rw [loadSlices_of_file ht, mapError_eq_ok] at h
    rw [loadSlices_of_file hu, mapError_eq_ok]
    exact SliceRow.readTable_of_rearranged hheader hrows h

/-- A cell with a comma and a line feed changes places, and a column of notes is added. -/
theorem column_order_is_free_swapped :
    let cell (text : String) : WrittenCell := ⟨text, true, nofun⟩
    let record (first second : String) : WrittenRecord := ⟨cell first, [cell second], nofun⟩
    let ending : Ending := ⟨lineFeed, [], rfl, nofun⟩
    let table : WrittenTable := ⟨false, [], record "p50Ms" "x",
      [(ending, record "0.5" "a,\nb"), (ending, record "1" "2")], [], nofun, nofun,
      fun h => nomatch h⟩
    let moved : WrittenTable := ⟨false, [], record "x" "p50Ms",
      [(ending, record "a,\nb" "0.5"), (ending, record "2" "1")], [], nofun, nofun,
      fun h => nomatch h⟩
    let slices := Utf8.encode
      "mode,slice_size,throughput_msg_s,gc_ms,p99_delay_ms\nts-server,1,2,3,4\n"
    let movedSlices := Utf8.encode
      "note,mode,slice_size,throughput_msg_s,p99_delay_ms,gc_ms\n\u00fc,ts-server,1,2,4,3\n"
    let t : Tree := ⟨[(["a.csv"], .file table.bytes), (["s.csv"], .file slices)], [], by decide⟩
    let u : Tree := ⟨[(["a.csv"], .file moved.bytes), (["s.csv"], .file movedSlices)], [],
      by decide⟩
    (∃ records, t.loadRecords ["a.csv"] = .ok records ∧ u.loadRecords ["a.csv"] = .ok records) ∧
    (∀ records, t.loadRecords ["a.csv"] = .ok records → u.loadRecords ["a.csv"] = .ok records) ∧
    u.loadSlices "s.csv" = .ok [⟨"ts-server", Binary64.ofInt 1, Binary64.ofInt 2,
      Binary64.ofInt 3, Binary64.ofInt 4⟩] := by
  intro cell record ending table moved slices movedSlices t u
  have htable : t.open "a.csv" = .ok (.file table.bytes) := by decide +kernel
  have hmoved : u.open "a.csv" = .ok (.file moved.bytes) := by decide +kernel
  have hslices : t.open "s.csv" = .ok (.file slices) := by decide +kernel
  have hmovedSlices : u.open "s.csv" = .ok (.file movedSlices) := by decide +kernel
  have hpermutes : table.Permutes [some 1, some 0] moved :=
    { columns := .swap 0 1 []
      header := ⟨rfl, .cons rfl (.cons rfl .nil)⟩
      data := .cons ⟨rfl, rfl, .cons rfl (.cons rfl .nil)⟩
        (.cons ⟨rfl, rfl, .cons rfl (.cons rfl .nil)⟩ .nil)
      leading := rfl }
  have hdistinct : table.header.texts.Nodup := by decide
  have hscan : scan slices =
      [⟨.first, ["mode", "slice_size", "throughput_msg_s", "gc_ms", "p99_delay_ms"].map Utf8.encode⟩,
        ⟨⟨2, 52, 1⟩, ["ts-server", "1", "2", "3", "4"].map Utf8.encode⟩] := by decide +kernel
  have hmovedScan : scan movedSlices =
      [⟨.first, ["note", "mode", "slice_size", "throughput_msg_s", "p99_delay_ms", "gc_ms"].map
          Utf8.encode⟩,
        ⟨⟨2, 57, 1⟩, ["\u00fc", "ts-server", "1", "2", "4", "3"].map Utf8.encode⟩] := by
    decide +kernel
  have hheader : HasTextHeader slices := by
    intro header hhead
    rw [hscan] at hhead
    obtain rfl := Option.some.inj hhead
    exact ⟨["mode", "slice_size", "throughput_msg_s", "gc_ms", "p99_delay_ms"], by decide +kernel⟩
  have hrearranges : Rearranges [none, some 0, some 1, some 2, some 4, some 3] IsReadable
      (scan slices) (scan movedSlices) := by
    rw [hscan, hmovedScan]
    refine .table (by decide) ?_ (.cons ?_ .nil)
    · refine .cons ⟨"note", by decide +kernel, fun field => by cases field <;> decide⟩ ?_
      exact .cons rfl (.cons rfl (.cons rfl (.cons rfl (.cons rfl .nil))))
    · refine .cons ⟨"\u00fc", by decide +kernel⟩ ?_
      exact .cons rfl (.cons rfl (.cons rfl (.cons rfl (.cons rfl .nil))))
  refine ⟨column_order_is_free.2.1 t u ["a.csv"] fun path hpath => ?_,
    fun records => column_order_is_free.1 t u ["a.csv"] records fun path hpath => ?_,
    column_order_is_free.2.2 t u "s.csv" _ slices movedSlices _ hslices hmovedSlices hheader
      hrearranges (by decide +kernel)⟩
  · obtain rfl := List.mem_singleton.1 hpath
    exact ⟨_, table, moved, htable, hmoved, hpermutes, hdistinct⟩
  · obtain rfl := List.mem_singleton.1 hpath
    exact ⟨_, _, table.bytes, moved.bytes, htable, hmoved, hpermutes.arranges hdistinct⟩

/-- **Column order counts where cells are not text.** A header that is not text names no column, so
that the last two cells of a record change places in its row. A column of cells that are not text
makes a file fail. -/
theorem column_order_counts_without_text :
    let unnamed := 0xFF :: Utf8.encode ",b,c,d,e\nts-server,1,2,3,4\n"
    let swapped := 0xFF :: Utf8.encode ",b,c,e,d\nts-server,1,2,4,3\n"
    let named := Utf8.encode
      "mode,slice_size,throughput_msg_s,gc_ms,p99_delay_ms\nts-server,1,2,3,4\n"
    let noted := Utf8.encode
      "mode,slice_size,throughput_msg_s,gc_ms,p99_delay_ms,note\nts-server,1,2,3,4," ++ [0xFF, 0x0A]
    let t : Tree := ⟨[(["unnamed.csv"], .file unnamed), (["swapped.csv"], .file swapped),
      (["named.csv"], .file named), (["noted.csv"], .file noted)], [], by decide⟩
    let row (gc p99Delay : Int) : SliceRow := ⟨"ts-server", Binary64.ofInt 1, Binary64.ofInt 2,
      Binary64.ofInt gc, Binary64.ofInt p99Delay⟩
    (Rearranges [some 0, some 1, some 2, some 4, some 3] IsReadable (scan unnamed) (scan swapped) ∧
      t.loadSlices "unnamed.csv" = .ok [row 3 4] ∧ t.loadSlices "swapped.csv" = .ok [row 4 3] ∧
      row 3 4 ≠ row 4 3) ∧
    Rearranges [some 0, some 1, some 2, some 3, some 4, none] (fun _ => True) (scan named)
      (scan noted) ∧
      t.loadSlices "named.csv" = .ok [row 3 4] ∧
      t.loadSlices "noted.csv" = .error (.malformed "noted.csv" (.encoding ⟨2, 57, 1⟩ 5 0)) := by
  intro unnamed swapped named noted t row
  have hunnamed : scan unnamed = [⟨.first, [0xFF] :: ["b", "c", "d", "e"].map Utf8.encode⟩,
      ⟨⟨2, 10, 1⟩, ["ts-server", "1", "2", "3", "4"].map Utf8.encode⟩] := by decide +kernel
  have hswapped : scan swapped = [⟨.first, [0xFF] :: ["b", "c", "e", "d"].map Utf8.encode⟩,
      ⟨⟨2, 10, 1⟩, ["ts-server", "1", "2", "4", "3"].map Utf8.encode⟩] := by decide +kernel
  have hnamed : scan named =
      [⟨.first, ["mode", "slice_size", "throughput_msg_s", "gc_ms", "p99_delay_ms"].map Utf8.encode⟩,
        ⟨⟨2, 52, 1⟩, ["ts-server", "1", "2", "3", "4"].map Utf8.encode⟩] := by decide +kernel
  have hnoted : scan noted =
      [⟨.first, ["mode", "slice_size", "throughput_msg_s", "gc_ms", "p99_delay_ms", "note"].map
          Utf8.encode⟩,
        ⟨⟨2, 57, 1⟩, ["ts-server", "1", "2", "3", "4"].map Utf8.encode ++ [[0xFF]]⟩] := by
    decide +kernel
  refine ⟨⟨?_, by decide +kernel, by decide +kernel, by decide +kernel⟩, ?_, by decide +kernel,
    by decide +kernel⟩
  · rw [hunnamed, hswapped]
    refine .table (by decide) ?_ (.cons ?_ .nil)
    · exact .cons rfl (.cons rfl (.cons rfl (.cons rfl (.cons rfl .nil))))
    · exact .cons rfl (.cons rfl (.cons rfl (.cons rfl (.cons rfl .nil))))
  · rw [hnamed, hnoted]
    refine .table (by decide) ?_ (.cons ?_ .nil)
    · have hnote : SliceRow.IsOtherName (Utf8.encode "note") :=
        ⟨"note", by decide +kernel, fun field => by cases field <;> decide⟩
      exact .cons rfl (.cons rfl (.cons rfl (.cons rfl (.cons rfl (.cons hnote .nil)))))
    · exact .cons rfl (.cons rfl (.cons rfl (.cons rfl (.cons rfl (.cons trivial .nil)))))

end Tree

end SweepCharts
