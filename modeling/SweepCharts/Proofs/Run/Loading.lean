import SweepCharts.Proofs.Csv.Encoding
import SweepCharts.Proofs.Sweep.Taking
import SweepCharts.Run.Loading

set_option autoImplicit false

/-! # The records of a list of files

A list of files is loaded file by file. `Tree.Holds` says which records a file gives, `Tree.Refuses`
why it gives none; a path does one or the other.

* `loadFile_eq_ok_iff`, `loadFile_eq_error_iff`: one file.
* `loadRecords_of_text`: files of text have a record for each row, whatever is in their cells.
* `loadRecords_append_first_error`: the records of a list are those of its parts, and its error is
  that of its first file without records.
-/

namespace SweepCharts

open Csv

/-! ## One table -/

/-- The rows of a table: one for each record after the header, in their order, with the cells of the
record by the names of the header. -/
def RowsOf (file : String) (bytes : List UInt8) (rows : List SourceRow) : Prop :=
  ∃ names, IsHeader names bytes ∧
    List.Forall₂ (fun row start => row.origin.file = file ∧ IsRowAt names bytes start row)
      rows (starts bytes).tail

theorem rowsOf_readRows {file : String} {bytes : List UInt8} {rows : List SourceRow}
    (h : readRows file bytes = .ok rows) : RowsOf file bytes rows := by
  obtain ⟨lines, hlines, rfl⟩ := map_eq_ok.1 h
  obtain ⟨names, hnames, hrows⟩ := exists_readTable_header_line hlines
  refine ⟨names, hnames, ?_⟩
  rw [List.forall₂_map_left_iff]
  refine hrows.imp fun line start hline => ⟨rfl, ?_⟩
  obtain ⟨row, hrow, hlocated⟩ := hline
  obtain ⟨texts, htexts, rfl⟩ := line_eq_ok hrow
  exact ⟨row.position, texts, hlocated.cells ▸ htexts, rfl⟩

theorem exists_readRows_of_isText (file : String) {bytes : List UInt8} (h : Utf8.IsText bytes) :
    ∃ rows, readRows file bytes = .ok rows := by
  obtain ⟨lines, hlines⟩ := exists_readTable_of_isText h
  exact ⟨_, map_eq_ok.2 ⟨lines, hlines, rfl⟩⟩

namespace Tree

variable {t : Tree} {path : String}

/-! ## One file -/

/-- The records of a file of a tree. -/
def Holds (t : Tree) (path : String) (records : List Record) : Prop :=
  ∃ content rows, t.open path = .ok (.file content) ∧ readRows path content = .ok rows ∧
    RowsOf path content rows ∧ records = rows.map SourceRow.record

/-- Why a path has no records: it cannot be opened, or what is there cannot be read as a table. -/
def Refuses (t : Tree) (path : String) : LoadError → Prop
  | .unreadable other cause => other = path ∧ t.open path = .error cause
  | .malformed other cause => other = path ∧
      (t.open path = .ok .directory ∧ cause = .directory ∨
        ∃ content, t.open path = .ok (.file content) ∧ readRows path content = .error cause)

/-- The records of one file. -/
def loadFile (t : Tree) (path : String) : Except LoadError (List Record) :=
  (t.readFile path).map fun rows => rows.map SourceRow.record

theorem readFile_of_error {cause : OsError} (h : t.open path = .error cause) :
    t.readFile path = .error (.unreadable path cause) := by
  rw [readFile, openSource, h]
  rfl

theorem readFile_of_directory (h : t.open path = .ok .directory) :
    t.readFile path = .error (.malformed path .directory) := by
  rw [readFile, openSource, h]
  rfl

theorem readFile_of_file {content : List UInt8} (h : t.open path = .ok (.file content)) :
    t.readFile path = (readRows path content).mapError (.malformed path) := by
  rw [readFile, openSource, h]
  rfl

theorem loadFile_eq_ok_iff {records : List Record} :
    t.loadFile path = .ok records ↔ t.Holds path records := by
  rw [loadFile, map_eq_ok]
  constructor
  · rintro ⟨rows, hrows, rfl⟩
    cases hopen : t.open path with
    | error cause =>
      rw [readFile_of_error hopen] at hrows
      cases hrows
    | ok node =>
      cases node with
      | directory =>
        rw [readFile_of_directory hopen] at hrows
        cases hrows
      | file content =>
        rw [readFile_of_file hopen, mapError_eq_ok] at hrows
        exact ⟨content, rows, hopen, hrows, rowsOf_readRows hrows, rfl⟩
  · rintro ⟨content, rows, hopen, hread, -, rfl⟩
    refine ⟨rows, ?_, rfl⟩
    rw [readFile_of_file hopen, mapError_eq_ok]
    exact hread

theorem loadFile_eq_error_iff {e : LoadError} :
    t.loadFile path = .error e ↔ t.Refuses path e := by
  rw [loadFile, map_eq_error]
  cases hopen : t.open path with
  | error cause =>
    rw [readFile_of_error hopen]
    cases e <;> simp [Refuses, hopen, eq_comm]
  | ok node =>
    cases node with
    | directory =>
      rw [readFile_of_directory hopen]
      cases e <;> simp [Refuses, hopen, eq_comm]
    | file content =>
      rw [readFile_of_file hopen, mapError_eq_error]
      cases e <;> simp [Refuses, hopen, eq_comm, and_comm]

theorem Holds.file_eq {records : List Record} (h : t.Holds path records) :
    ∀ r ∈ records, r.origin.file = path := by
  obtain ⟨content, rows, -, -, ⟨names, -, hrows⟩, rfl⟩ := h
  intro r hr
  obtain ⟨row, hrow, rfl⟩ := List.mem_map.1 hr
  rw [SourceRow.record, origin_ofCells]
  exact ((List.forall₂_and_left _ _).1 hrows).1 row hrow

/-! ## Lists of files -/

theorem loadRecords_eq (t : Tree) (paths : List String) :
    t.loadRecords paths = (paths.mapM t.loadFile).map List.flatten := by
  unfold loadRecords readFiles loadFile
  rw [mapM_map]
  cases paths.mapM t.readFile with
  | error e => rfl
  | ok parts => exact congrArg Except.ok List.map_flatten

theorem loadRecords_eq_ok_iff {paths : List String} {records : List Record} :
    t.loadRecords paths = .ok records ↔
      ∃ parts, List.Forall₂ t.Holds paths parts ∧ records = parts.flatten := by
  simp only [loadRecords_eq, map_eq_ok, mapM_eq_ok_iff, loadFile_eq_ok_iff]

theorem loadRecords_eq_error_iff {paths : List String} {e : LoadError} :
    t.loadRecords paths = .error e ↔
      ∃ before path after, paths = before ++ path :: after ∧
        (∀ p ∈ before, ∃ records, t.Holds p records) ∧ t.Refuses path e := by
  simp only [loadRecords_eq, map_eq_error, mapM_eq_error_iff, loadFile_eq_ok_iff,
    loadFile_eq_error_iff]

theorem loadRecords_append (t : Tree) (paths more : List String) :
    t.loadRecords (paths ++ more) = (t.loadRecords paths).bind fun records =>
      (t.loadRecords more).map (records ++ ·) := by
  simp only [loadRecords_eq, List.mapM_append]
  cases paths.mapM t.loadFile with
  | error e => rfl
  | ok parts =>
    cases more.mapM t.loadFile with
    | error e => rfl
    | ok rest => exact congrArg Except.ok List.flatten_append

/-- **Loading never fails on the content of cells.** A table that is text has one row for each
record after its header, and files that are text have one record for each of these rows. -/
theorem loadRecords_of_text :
    (∀ (file : String) (bytes : List UInt8), Utf8.IsText bytes →
      ∃ rows, readRows file bytes = .ok rows ∧ RowsOf file bytes rows) ∧
    ∀ (t : Tree) (paths : List String),
      (∀ path ∈ paths, ∃ content, t.open path = .ok (.file content) ∧ Utf8.IsText content) →
      ∃ parts, t.loadRecords paths = .ok parts.flatten ∧ List.Forall₂ t.Holds paths parts := by
  constructor
  · intro file bytes h
    obtain ⟨rows, hrows⟩ := exists_readRows_of_isText file h
    exact ⟨rows, hrows, rowsOf_readRows hrows⟩
  · intro t paths h
    have hfile : ∀ path ∈ paths, ∃ records, t.loadFile path = .ok records := by
      intro path hpath
      obtain ⟨content, hopen, htext⟩ := h path hpath
      obtain ⟨rows, hrows⟩ := exists_readRows_of_isText path htext
      exact ⟨_, loadFile_eq_ok_iff.2 ⟨content, rows, hopen, hrows, rowsOf_readRows hrows, rfl⟩⟩
    obtain ⟨parts, hparts⟩ := exists_mapM_eq_ok hfile
    have hloaded : t.loadRecords paths = .ok parts.flatten := by
      rw [loadRecords_eq, hparts]
      rfl
    obtain ⟨parts, hholds, hflatten⟩ := loadRecords_eq_ok_iff.1 hloaded
    exact ⟨parts, hflatten ▸ hloaded, hholds⟩

/-- A short row, and one that ends in quotes with the text, after a blank line; the file is named
twice. -/
theorem loadRecords_of_text_open_quote :
    let content := Utf8.encode "batchSize,\u00e9\n1\n\n2,\"\u00fc,\n"
    let t : Tree := ⟨[(["a.csv"], .file content)], [], by decide⟩
    t.open "a.csv" = .ok (.file content) ∧
      (t.loadRecords ["a.csv", "./a.csv"]).map List.length = .ok 4 ∧
      ∃ parts, t.loadRecords ["a.csv", "./a.csv"] = .ok parts.flatten ∧
        List.Forall₂ t.Holds ["a.csv", "./a.csv"] parts := by
  intro content t
  have hopen : t.open "a.csv" = .ok (.file content) := by decide +kernel
  have hdot : t.open "./a.csv" = .ok (.file content) := by decide +kernel
  have hcount : (t.loadRecords ["a.csv", "./a.csv"]).map List.length = .ok 4 := by decide +kernel
  refine ⟨hopen, hcount, loadRecords_of_text.2 t _ fun path hpath => ⟨content, ?_, _, rfl⟩⟩
  rcases List.mem_pair.1 hpath with rfl | rfl
  · exact hopen
  · exact hdot

/-- **Loading a list of files** gives the records of its parts one after the other. It fails as its
first file without records does, whatever comes after it, and otherwise it gives the records of each
file in turn, labelled with the path of the file. -/
theorem loadRecords_append_first_error (t : Tree) (paths more : List String) :
    (t.loadRecords (paths ++ more) =
      match t.loadRecords paths, t.loadRecords more with
      | .error e, _ => .error e
      | .ok _, .error e => .error e
      | .ok records, .ok rest => .ok (records ++ rest)) ∧
    (∀ e, t.loadRecords paths = .error e ↔
      ∃ before path after, paths = before ++ path :: after ∧
        (∀ p ∈ before, ∃ records, t.Holds p records) ∧ t.Refuses path e) ∧
    ∀ records, t.loadRecords paths = .ok records ↔
      ∃ parts, records = parts.flatten ∧
        List.Forall₂ (fun path part => t.Holds path part ∧ ∀ r ∈ part, r.origin.file = path)
          paths parts := by
  refine ⟨?_, fun e => loadRecords_eq_error_iff, fun records => ?_⟩
  · rw [loadRecords_append]
    cases t.loadRecords paths with
    | error e => rfl
    | ok records => cases t.loadRecords more <;> rfl
  · rw [loadRecords_eq_ok_iff]
    constructor
    · rintro ⟨parts, hholds, rfl⟩
      exact ⟨parts, rfl, hholds.imp fun path part h => ⟨h, h.file_eq⟩⟩
    · rintro ⟨parts, rfl, hholds⟩
      exact ⟨parts, hholds.imp fun path part h => h.1, rfl⟩

end Tree

end SweepCharts
