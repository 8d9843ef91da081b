import Mathlib.Data.List.ReduceOption
import SweepCharts.Proofs.Columns
import SweepCharts.Proofs.Csv.Encoding

set_option autoImplicit false

/-! # Tables with their columns in another order

An arrangement says for each column of a table where it stood in another one, or that it was not
there. It moves the cells of every record alike, and what a reader makes of them one by one.

* `Arrangement.Places.kept_perm`: no column is lost and none is doubled.
* `Row.Arranged.line_eq_ok`: a row by the names of its columns, if these are different.
* `readTable_of_arranges`: a table by its lines.
* `forall₂_scan_of_permutes`: a table written with its columns in another order has its records on
  the same lines, because a record keeps its line feeds.
-/

namespace SweepCharts.Csv

/-! ## Arrangements -/

/-- For each column the place where it stood; a new column has none. -/
abbrev Arrangement := List (Option Nat)

namespace Arrangement

/-- The columns that were there before, without the new ones. -/
def kept {α : Type} (a : Arrangement) (moved : List α) : List α :=
  (a.zip moved).filterMap fun e => e.1.map fun _ => e.2

/-- A cell of an arranged record is the one at the place where its column stood; in a new column it
may be any that passes a test. -/
def PlacesCell {α : Type} (cells : List α) (IsNew : α → Prop) : Option Nat → α → Prop
  | some i, cell => cells[i]? = some cell
  | none, cell => IsNew cell

/-- The record `moved` has the cells of a record in an arrangement. -/
def Places {α : Type} (a : Arrangement) (IsNew : α → Prop) (cells moved : List α) : Prop :=
  List.Forall₂ (PlacesCell cells IsNew) a moved

/-- An arrangement of so many columns has each of them once. -/
def IsOf (a : Arrangement) (width : Nat) : Prop := a.reduceOption.Perm (List.range width)

instance (a : Arrangement) (width : Nat) : Decidable (a.IsOf width) :=
  inferInstanceAs (Decidable (a.reduceOption.Perm (List.range width)))

variable {α β : Type} {a : Arrangement} {IsNew : α → Prop} {cells moved : List α}

theorem filterMap_getElem?_range (cells : List α) :
    ((List.range cells.length).filterMap fun i => cells[i]?) = cells := by
  induction cells with
  | nil => rfl
  | cons cell cells ih =>
    rw [List.length_cons, List.range_succ_eq_map]
    simpa [List.filterMap_map, Function.comp_def] using ih

/-- **The kept cells of an arranged record are its cells**, each column once. -/
theorem Places.kept_perm (h : a.Places IsNew cells moved) (ha : a.IsOf cells.length) :
    (a.kept moved).Perm cells := by
  have hkept : a.kept moved = a.reduceOption.filterMap fun i => cells[i]? := by
    clear ha
    induction h with
    | nil => rfl
    | @cons slot cell a moved hcell _ ih =>
      cases slot with
      | none => simpa [kept] using ih
      | some i =>
        have hi : cells[i]? = some cell := hcell
        simpa [kept, hi] using ih
  have hperm := ha.filterMap fun i => cells[i]?
  rwa [filterMap_getElem?_range, ← hkept] at hperm

/-- A test that no new cell passes picks from the kept cells. -/
theorem Places.filter_kept {p : α → Bool} (h : a.Places IsNew cells moved)
    (hnew : ∀ cell, IsNew cell → p cell = false) : (a.kept moved).filter p = moved.filter p := by
  induction h with
  | nil => rfl
  | @cons slot cell a moved hcell _ ih =>
    cases slot with
    | none =>
      have hp : p cell = false := hnew cell hcell
      simpa [kept, List.filter_cons, hp] using ih
    | some i =>
      simp only [kept, List.zip_cons_cons, List.filterMap_cons, Option.map_some,
        List.filter_cons] at ih ⊢
      rw [ih]

/-- What passes such a test is the same in both records, in some order. -/
theorem Places.filter_perm {p : α → Bool} (h : a.Places IsNew cells moved)
    (ha : a.IsOf cells.length) (hnew : ∀ cell, IsNew cell → p cell = false) :
    (moved.filter p).Perm (cells.filter p) := by
  rw [← h.filter_kept hnew]
  exact (h.kept_perm ha).filter p

theorem Places.perm (h : a.Places (fun _ => False) cells moved) (ha : a.IsOf cells.length) :
    moved.Perm cells := by
  simpa using h.filter_perm (p := fun _ => true) ha nofun

theorem Places.length_eq (h : a.Places IsNew cells moved) : moved.length = a.length :=
  (List.Forall₂.length_eq h).symm

theorem Places.map (f : α → β) (h : a.Places (fun _ => False) cells moved) :
    a.Places (fun _ => False) (cells.map f) (moved.map f) := by
  unfold Places
  rw [List.forall₂_map_right_iff]
  refine h.imp fun slot cell hcell => ?_
  cases slot with
  | none => exact hcell
  | some i =>
    have hi : cells[i]? = some cell := hcell
    simp [PlacesCell, hi]

/-- Two records arranged alike. -/
theorem Places.zip {IsNewName : β → Prop} {names movedNames : List β}
    (hnames : a.Places IsNewName names movedNames) (hcells : a.Places IsNew cells moved) :
    a.Places (fun e => IsNewName e.1 ∧ IsNew e.2) (names.zip cells) (movedNames.zip moved) := by
  induction hnames generalizing moved with
  | nil =>
    cases hcells
    exact .nil
  | @cons slot name a movedNames hname _ ih =>
    cases hcells with
    | @cons _ cell _ moved hcell hrest =>
      refine .cons ?_ (ih hrest)
      cases slot with
      | none => exact ⟨hname, hcell⟩
      | some i => exact List.getElem?_zip_eq_some.2 ⟨hname, hcell⟩

/-- What is made of the cells one by one is arranged as they are. -/
theorem Places.exists_forall₂ {R : α → β → Prop} (IsNewResult : β → Prop) {results : List β}
    (h : a.Places IsNew cells moved) (hcells : List.Forall₂ R cells results)
    (hnew : ∀ cell, IsNew cell → ∃ result, R cell result ∧ IsNewResult result) :
    ∃ movedResults, List.Forall₂ R moved movedResults ∧
      a.Places IsNewResult results movedResults := by
  induction h with
  | nil => exact ⟨[], .nil, .nil⟩
  | @cons slot cell a moved hcell _ ih =>
    obtain ⟨movedResults, hmoved, hplaces⟩ := ih
    cases slot with
    | none =>
      obtain ⟨result, hR, hresult⟩ := hnew cell hcell
      exact ⟨result :: movedResults, .cons hR hmoved, .cons hresult hplaces⟩
    | some i =>
      obtain ⟨hi, rfl⟩ := List.getElem?_eq_some_iff.1 hcell
      obtain ⟨hlength, hall⟩ := List.forall₂_iff_get.1 hcells
      have hi' : i < results.length := hlength ▸ hi
      exact ⟨results[i] :: movedResults, .cons (hall i hi hi') hmoved,
        .cons (List.getElem?_eq_getElem hi') hplaces⟩

end Arrangement

/-! ## Rows by the names of their columns -/

/-- The texts of cells are read one by one. -/
theorem decodeFrom_eq_ok_iff {p : Position} {field : Nat} {cells : List (List UInt8)}
    {texts : List String} :
    decodeFrom p field cells = .ok texts ↔
      List.Forall₂ (fun cell text => Utf8.decode cell = .ok text.toList) cells texts := by
  induction cells generalizing field texts with
  | nil =>
    rw [decodeFrom, List.forall₂_nil_left_iff]
    exact ⟨fun h => (Except.ok.inj h).symm, fun h => h ▸ rfl⟩
  | cons cell cells ih =>
    rw [decodeFrom, List.forall₂_cons_left_iff]
    cases hcell : Utf8.decode cell with
    | error valid => simp
    | ok chars =>
      simp only [map_eq_ok, ih, Except.ok.injEq]
      constructor
      · rintro ⟨rest, hrest, rfl⟩
        exact ⟨String.ofList chars, rest, String.toList_ofList.symm, hrest, rfl⟩
      · rintro ⟨text, rest, htext, hrest, rfl⟩
        exact ⟨rest, hrest, by rw [htext, String.ofList_toList]⟩

/-- A record in another arrangement, on the line where it was. -/
structure Row.Arranged (a : Arrangement) (width : Nat) (row moved : Row) : Prop where
  line : moved.position.line = row.position.line
  width : row.cells.length = width
  cells : a.Places (fun _ => False) row.cells moved.cells

theorem Row.exists_texts_of_places {a : Arrangement} {row moved : Row} {texts : List String}
    (hcells : a.Places (fun _ => False) row.cells moved.cells) (h : row.texts = .ok texts) :
    ∃ movedTexts, moved.texts = .ok movedTexts ∧
      a.Places (fun _ => False) texts movedTexts := by
  obtain ⟨movedTexts, hmoved, hplaces⟩ :=
    hcells.exists_forall₂ (fun _ => False) (decodeFrom_eq_ok_iff.1 h) nofun
  exact ⟨movedTexts, decodeFrom_eq_ok_iff.2 hmoved, hplaces⟩

/-- **The line of a row in another arrangement** is the same, if the columns have different names
and the row has a cell for each. -/
theorem Row.Arranged.line_eq_ok {a : Arrangement} {row moved : Row}
    {names movedNames : List String} {line : Line} (h : Row.Arranged a names.length row moved)
    (ha : a.IsOf names.length) (hnames : a.Places (fun _ => False) names movedNames)
    (hdistinct : names.Nodup) (hline : row.line names = .ok line) :
    moved.line movedNames = .ok line := by
  obtain ⟨texts, htexts, rfl⟩ := Csv.line_eq_ok hline
  obtain ⟨movedTexts, hmoved, hplaces⟩ := Row.exists_texts_of_places h.cells htexts
  have hlength : texts.length = names.length :=
    (List.Forall₂.length_eq (decodeFrom_eq_ok_iff.1 htexts)).symm.trans h.width
  have hzip : (movedNames.zip movedTexts).Perm (names.zip texts) := by
    have hboth := hnames.zip hplaces
    simp only [and_self] at hboth
    apply hboth.perm
    rwa [List.length_zip, hlength, Nat.min_self]
  have hkeys : ((names.zip texts).map Prod.fst).Nodup := by
    rwa [List.map_fst_zip (Nat.le_of_eq hlength.symm)]
  have hfields := Columns.ofList_perm hkeys hzip
  rw [Row.line, hmoved, h.line, ← hfields]
  rfl

/-- The names of a table, if it has a header. -/
def HasNames (bytes : List UInt8) (names : List String) : Prop :=
  ∃ header ∈ (scan bytes).head?, header.texts = .ok names

/-- A table is another one with its columns in an arrangement. They have different names, and every
record has a cell for each. -/
structure Arranges (a : Arrangement) (names : List String) (bytes moved : List UInt8) : Prop where
  columns : a.IsOf names.length
  distinct : names.Nodup
  header : HasNames bytes names
  rows : List.Forall₂ (Row.Arranged a names.length) (scan bytes) (scan moved)

/-- **The lines of a table in another arrangement** are the same. -/
theorem readTable_of_arranges {a : Arrangement} {names : List String} {bytes moved : List UInt8}
    {lines : List Line} (harranges : Arranges a names bytes moved)
    (h : readTable bytes = .ok lines) : readTable moved = .ok lines := by
  obtain ⟨ha, hdistinct, ⟨header, hhead, hheader⟩, hrows⟩ := harranges
  unfold readTable at h ⊢
  generalize scan bytes = rows at hhead hrows h
  generalize scan moved = movedRows at hrows ⊢
  cases hrows with
  | nil => cases hhead
  | cons hfirst hdata =>
    obtain rfl := Option.some.inj hhead
    obtain ⟨movedNames, hmovedNames, hplaces⟩ := Row.exists_texts_of_places hfirst.cells hheader
    simp only [hheader] at h
    simp only [hmovedNames]
    exact mapM_eq_ok_of_forall₂ hdata h fun row moved line hrow hline =>
      hrow.line_eq_ok ha hplaces hdistinct hline

/-! ## Lines of written tables -/

theorem count_doubled {b : UInt8} (hb : b ≠ quote) (bytes : List UInt8) :
    (doubled bytes).count b = bytes.count b := by
  induction bytes with
  | nil => rfl
  | cons c bytes ih =>
    have hcons : doubled (c :: bytes) =
        (if c = quote then [quote, quote] else [c]) ++ doubled bytes :=
      rfl
    rw [hcons, List.count_append, ih, List.count_cons]
    split
    · rename_i hc
      simp [hc, Ne.symm hb]
    · simp [List.count_singleton, Nat.add_comm]

/-- A cell has the line feeds of its text, in quotes or not. -/
theorem WrittenCell.count_bytes (c : WrittenCell) :
    c.bytes.count lineFeed = (Utf8.encode c.text).count lineFeed := by
  have hquote : ([quote] : List UInt8).count lineFeed = 0 := by decide
  unfold WrittenCell.bytes
  split
  · rw [← List.singleton_append, List.append_assoc, List.count_append, List.count_append, hquote,
      count_doubled (by decide)]
    omega
  · rfl

/-- A record has the line feeds of its texts. -/
theorem WrittenRecord.count_bytes (r : WrittenRecord) :
    r.bytes.count lineFeed = (r.texts.flatMap Utf8.encode).count lineFeed := by
  have hothers (cells : List WrittenCell) : (othersBytes cells).count lineFeed =
      ((cells.map WrittenCell.text).flatMap Utf8.encode).count lineFeed := by
    induction cells with
    | nil => rfl
    | cons c cells ih =>
      have hcons : othersBytes (c :: cells) = [comma] ++ c.bytes ++ othersBytes cells := rfl
      have hcomma : ([comma] : List UInt8).count lineFeed = 0 := by decide
      rw [hcons, List.count_append, List.count_append, hcomma, c.count_bytes, ih, List.map_cons,
        List.flatMap_cons, List.count_append, Nat.zero_add]
  rw [WrittenRecord.bytes, List.count_append, r.first.count_bytes, hothers, WrittenRecord.texts,
    List.map_cons, List.flatMap_cons, List.count_append]

/-- A record is written with its columns in another order. -/
def WrittenRecord.Permutes (a : Arrangement) (width : Nat) (r moved : WrittenRecord) : Prop :=
  r.texts.length = width ∧ a.Places (fun _ => False) r.texts moved.texts

/-- A table is written with its columns in another order: header and data alike, with the same breaks
between its records. Cells may be put in quotes that were not, and the other way round. -/
structure WrittenTable.Permutes (a : Arrangement) (t moved : WrittenTable) : Prop where
  columns : a.IsOf t.header.texts.length
  header : t.header.Permutes a t.header.texts.length moved.header
  data : List.Forall₂ (fun e f => f.1 = e.1 ∧ e.2.Permutes a t.header.texts.length f.2)
    t.data moved.data
  leading : moved.leading = t.leading

/-- The first record of a text, after any breaks, and the records after it. -/
theorem rows_writtenRecord (r : WrittenRecord) {lead rest : List UInt8}
    (hlead : ∀ b ∈ lead, isBreak b = true) (hrest : ∀ b ∈ rest.head?, isBreak b = true)
    (p : Position) :
    rows p (lead ++ (r.bytes ++ rest)) =
      ⟨p, r.contents⟩ :: rows (p.after (lead ++ (r.bytes ++ rest.take 1))) (rest.drop 1) := by
  obtain ⟨b, bytes, hbytes, hb⟩ := r.exists_bytes_eq
  have hrecord := record_start_record r hrest
  rw [hbytes, List.cons_append] at hrecord ⊢
  rw [rows_of_record hlead hb, hrecord]
  simp [WrittenRecord.contents, WrittenRecord.texts]

theorem WrittenRecord.Permutes.arranged {a : Arrangement} {width : Nat} {r moved : WrittenRecord}
    (h : r.Permutes a width moved) {p q : Position} (hline : q.line = p.line) :
    Row.Arranged a width ⟨p, r.contents⟩ ⟨q, moved.contents⟩ where
  line := hline
  width := by
    show (r.texts.map Utf8.encode).length = width
    rw [List.length_map, h.1]
  cells := h.2.map Utf8.encode

theorem WrittenRecord.Permutes.count_bytes {a : Arrangement} {width : Nat}
    {r moved : WrittenRecord} (h : r.Permutes a width moved) (ha : a.IsOf width) :
    moved.bytes.count lineFeed = r.bytes.count lineFeed := by
  have hperm : moved.texts.Perm r.texts := h.2.perm (h.1.symm ▸ ha)
  rw [moved.count_bytes, r.count_bytes]
  exact (hperm.flatMap_right Utf8.encode).count_eq lineFeed

/-- Records follow each other on the same lines, by induction on the data. -/
theorem forall₂_rows_of_permutes {a : Arrangement} {width : Nat} (ha : a.IsOf width)
    {data movedData : List (Ending × WrittenRecord)}
    (hdata : List.Forall₂ (fun e f => f.1 = e.1 ∧ e.2.Permutes a width f.2) data movedData)
    {r moved : WrittenRecord} (hr : r.Permutes a width moved)
    {lead trailing movedTrailing : List UInt8} (hlead : ∀ b ∈ lead, isBreak b = true)
    (htrailing : ∀ b ∈ trailing, isBreak b = true)
    (hmovedTrailing : ∀ b ∈ movedTrailing, isBreak b = true) {p q : Position}
    (hline : q.line = p.line) :
    List.Forall₂ (Row.Arranged a width)
      (rows p (lead ++ (r.bytes ++ WrittenTable.dataBytes data trailing)))
      (rows q (lead ++ (moved.bytes ++ WrittenTable.dataBytes movedData movedTrailing))) := by
  have hcount := hr.count_bytes ha
  induction hdata generalizing r moved lead p q with
  | nil =>
    have hnil (bytes : List UInt8) : WrittenTable.dataBytes [] bytes = bytes := rfl
    have hrest (bytes : List UInt8) (h : ∀ b ∈ bytes, isBreak b = true) (o : Position) :
        rows o (bytes.drop 1) = [] := rows_eq_nil fun b hb => h b (List.mem_of_mem_drop hb)
    rw [rows_writtenRecord r hlead (isBreak_head?_dataBytes [] htrailing),
      rows_writtenRecord moved hlead (isBreak_head?_dataBytes [] hmovedTrailing), hnil, hnil,
      hrest trailing htrailing, hrest movedTrailing hmovedTrailing]
    exact .cons (hr.arranged hline) .nil
  | @cons e f data movedData he _ ih =>
    obtain ⟨hending, hrecord⟩ := he
    have hcons (d : Ending × WrittenRecord) (ds : List (Ending × WrittenRecord))
        (bytes : List UInt8) : WrittenTable.dataBytes (d :: ds) bytes =
          d.1.first :: (d.1.others ++ (d.2.bytes ++ WrittenTable.dataBytes ds bytes)) := by
      simp [WrittenTable.dataBytes, Ending.bytes]
    rw [rows_writtenRecord r hlead (isBreak_head?_dataBytes (e :: data) htrailing),
      rows_writtenRecord moved hlead (isBreak_head?_dataBytes (f :: movedData) hmovedTrailing),
      hcons, hcons, hending]
    refine .cons (hr.arranged hline) ?_
    -- the breaks left of an ending lead the next record
    apply ih hrecord e.1.others_break
    · simp only [Position.after, List.count_append, hcount, hline]
      rfl
    · exact hrecord.count_bytes ha

/-- **A table in another order has its records on the same lines**, whichever cells are in quotes. -/
theorem forall₂_scan_of_permutes {a : Arrangement} {t moved : WrittenTable}
    (h : t.Permutes a moved) :
    List.Forall₂ (Row.Arranged a t.header.texts.length) (scan t.bytes) (scan moved.bytes) := by
  have hrows := forall₂_rows_of_permutes h.columns h.data h.header t.leading_break
    t.trailing_break moved.trailing_break (p := .first) (q := .first) rfl
  obtain ⟨mark, hmark⟩ := exists_splitMark_bytes t
  obtain ⟨movedMark, hmovedMark⟩ := exists_splitMark_bytes moved
  rw [h.leading] at hmovedMark
  simp only [scan, hmark, hmovedMark]
  generalize rows .first _ = records at hrows ⊢
  generalize rows .first _ = movedRecords at hrows ⊢
  cases hrows with
  | nil => exact .nil
  | cons hheader hdata =>
    refine .cons hheader ?_
    rw [List.forall₂_map_left_iff, List.forall₂_map_right_iff]
    exact hdata.imp fun row moved hrow => ⟨hrow.line, hrow.width, hrow.cells⟩

theorem hasNames_bytes (t : WrittenTable) : HasNames t.bytes t.header.texts := by
  obtain ⟨header, data, hscan, hheader, -⟩ := List.map_eq_cons_iff.1 (map_cells_scan t)
  exact ⟨header, by rw [hscan]; rfl, Row.texts_of_cells hheader⟩

theorem WrittenTable.Permutes.arranges {a : Arrangement} {t moved : WrittenTable}
    (h : t.Permutes a moved) (hdistinct : t.header.texts.Nodup) :
    Arranges a t.header.texts t.bytes moved.bytes where
  columns := h.columns
  distinct := hdistinct
  header := hasNames_bytes t
  rows := forall₂_scan_of_permutes h

end SweepCharts.Csv
