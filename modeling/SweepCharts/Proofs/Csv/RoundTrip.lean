import Mathlib.Data.List.Forall2
import Mathlib.Data.List.Induction
import SweepCharts.Proofs.Csv.Scanner
import SweepCharts.Proofs.Csv.Written
import SweepCharts.Proofs.Text.Utf8
import SweepCharts.Sweep.Loading

set_option autoImplicit false

/-! # Tables read back as they were written

Reading follows writing: a cell, a record, the records of a table, their texts. At each step what
stands before is gone, and of what stands after only the first byte matters.

* `record_start_cell`, `record_start_record`: a cell and a record, by the bytes after them.
* `map_cells_rows`: the records of a table, by induction on its data.
* `map_cells_scan`: a byte order mark is dropped, and nothing else is taken for one.
* `readRows_written`: the rows of a table hold the cells of its data by the names of its header.
-/

namespace SweepCharts.Csv

/-! ## Cells -/

/-- Bytes inside quotes belong to the cell, each pair of quotes as one. -/
theorem record_quoted_append (bytes rest : List UInt8) :
    record .quoted (doubled bytes ++ quote :: rest) =
      (record .closing rest).before bytes (doubled bytes ++ [quote]) := by
  induction bytes with
  | nil => rfl
  | cons b bytes ih =>
    by_cases hb : b = quote
    · subst hb
      have hpair : doubled (quote :: bytes) = quote :: quote :: doubled bytes := rfl
      have hstep : record .quoted (quote :: quote :: (doubled bytes ++ quote :: rest)) =
          (record .quoted (doubled bytes ++ quote :: rest)).before [quote] [quote, quote] := rfl
      rw [hpair, List.cons_append, List.cons_append, hstep, ih, Record.before_before]
      rfl
    · have hone : doubled (b :: bytes) = b :: doubled bytes := by
        simp only [doubled, List.flatMap_cons, if_neg hb, List.singleton_append]
      have haction : Mode.quoted.action b = .keep .quoted := if_neg (by simpa using hb)
      rw [hone, List.cons_append, record_keep haction, ih, Record.before_before]
      rfl

theorem IsBare.isPlain {text : String} (h : IsBare text) {b : UInt8}
    (hb : b ∈ Utf8.encode text) : IsPlain b := by
  constructor
  · rintro rfl
    exact (h.no_mark _ (Utf8.mem_of_mem_encode hb (by decide))).1 (by decide)
  · cases hbreak : isBreak b with
    | false => rfl
    | true =>
      simp only [isBreak, Bool.or_eq_true, beq_iff_eq] at hbreak
      rcases hbreak with rfl | rfl
      · exact absurd (by decide) (h.no_mark _ (Utf8.mem_of_mem_encode hb (by decide))).2.2
      · exact absurd (by decide) (h.no_mark _ (Utf8.mem_of_mem_encode hb (by decide))).2.1

theorem IsBare.ne_quote {text : String} (h : IsBare text) {b : UInt8}
    (hb : (Utf8.encode text).head? = some b) : b ≠ quote := by
  rintro rfl
  exact h.no_quote (Utf8.head?_of_head?_encode hb (by decide))

/-- **A cell reads back**, in quotes or bare, if a cell ends after it. -/
theorem record_start_cell (c : WrittenCell) {rest : List UInt8} (hrest : Ends rest) :
    record .start (c.bytes ++ rest) =
      (record .bare rest).before (Utf8.encode c.text) c.bytes := by
  unfold WrittenCell.bytes
  split
  · have hopen (bytes : List UInt8) :
        record .start (quote :: bytes) = (record .quoted bytes).before [] [quote] := rfl
    rw [List.append_assoc, List.cons_append, hopen, List.singleton_append, record_quoted_append,
      record_of_ends (by decide) hrest, Record.before_before]
    rfl
  · rename_i hquoted
    have hbare : IsBare c.text := c.bare (by simpa using hquoted)
    have hplain : ∀ b ∈ Utf8.encode c.text, IsPlain b := fun b hb => hbare.isPlain hb
    cases hbytes : Utf8.encode c.text with
    | nil => exact record_of_ends (by decide) hrest
    | cons b bytes =>
      rw [hbytes] at hplain
      have hb : b ≠ quote := hbare.ne_quote (by rw [hbytes, List.head?_cons])
      have haction : Mode.start.action b = .keep .bare :=
        (if_neg (by simpa using hb)).trans (bareAction_of_isPlain (hplain b (.head _)))
      rw [List.cons_append, record_keep haction,
        record_bare_append fun d hd => hplain d (.tail _ hd), Record.before_before]
      rfl

/-! ## Records -/

namespace WrittenRecord

/-- The cells of a record as bytes. -/
def contents (r : WrittenRecord) : List (List UInt8) := r.texts.map Utf8.encode

theorem ends_othersBytes {cells : List WrittenCell} {rest : List UInt8}
    (hrest : ∀ b ∈ rest.head?, isBreak b = true) : Ends (othersBytes cells ++ rest) := by
  cases cells with
  | nil => exact fun b hb => .inr (hrest b hb)
  | cons c cells =>
    intro b hb
    obtain rfl : comma = b := Option.some.inj hb
    exact .inl rfl

end WrittenRecord

open WrittenRecord

/-- The cells after a cell, up to the end of their record. -/
theorem record_others (cells : List WrittenCell) {rest : List UInt8}
    (hrest : ∀ b ∈ rest.head?, isBreak b = true) :
    record .bare (othersBytes cells ++ rest) =
      ⟨[], cells.map fun c => Utf8.encode c.text, othersBytes cells ++ rest.take 1,
        rest.drop 1⟩ := by
  induction cells with
  | nil =>
    cases rest with
    | nil => rfl
    | cons b rest => exact record_bare_break (hrest b rfl) rest
  | cons c cells ih =>
    have hothers : othersBytes (c :: cells) = comma :: (c.bytes ++ othersBytes cells) := rfl
    rw [hothers, List.cons_append, record_bare_comma, List.append_assoc,
      record_start_cell c (ends_othersBytes hrest), ih]
    simp only [Record.before, List.append_nil, List.map_cons, List.append_assoc, List.cons_append]

/-- **A record reads back**, if a record ends after it. -/
theorem record_start_record (r : WrittenRecord) {rest : List UInt8}
    (hrest : ∀ b ∈ rest.head?, isBreak b = true) :
    record .start (r.bytes ++ rest) =
      ⟨Utf8.encode r.first.text, r.others.map fun c => Utf8.encode c.text,
        r.bytes ++ rest.take 1, rest.drop 1⟩ := by
  rw [WrittenRecord.bytes, List.append_assoc,
    record_start_cell r.first (ends_othersBytes hrest), record_others r.others hrest]
  simp only [Record.before, List.append_nil, List.append_assoc]

/-- How a record starts: with a quote, with a comma after an empty cell, or with a text. -/
theorem WrittenRecord.bytes_cases (r : WrittenRecord) :
    (∃ rest, r.bytes = quote :: rest) ∨ (∃ rest, r.bytes = comma :: rest) ∨
      r.first.quoted = false ∧ r.first.text ≠ "" ∧
        r.bytes = Utf8.encode r.first.text ++ othersBytes r.others := by
  cases hquoted : r.first.quoted with
  | true =>
    refine .inl ⟨doubled (Utf8.encode r.first.text) ++ [quote] ++ othersBytes r.others, ?_⟩
    rw [WrittenRecord.bytes, WrittenCell.bytes, if_pos hquoted]
    rfl
  | false =>
    have hbytes : r.bytes = Utf8.encode r.first.text ++ othersBytes r.others := by
      rw [WrittenRecord.bytes, WrittenCell.bytes, hquoted]
      rfl
    by_cases htext : r.first.text = ""
    · cases hothers : r.others with
      | nil =>
        have hshows := r.shows hothers htext
        rw [hquoted] at hshows
        cases hshows
      | cons c cells =>
        refine .inr (.inl ⟨c.bytes ++ othersBytes cells, ?_⟩)
        rw [hbytes, htext, hothers]
        rfl
    · exact .inr (.inr ⟨rfl, htext, hbytes⟩)

theorem WrittenRecord.exists_bytes_eq (r : WrittenRecord) :
    ∃ b bytes, r.bytes = b :: bytes ∧ isBreak b = false := by
  rcases r.bytes_cases with ⟨rest, h⟩ | ⟨rest, h⟩ | ⟨hquoted, htext, h⟩
  · exact ⟨quote, rest, h, isBreak_quote⟩
  · exact ⟨comma, rest, h, isBreak_comma⟩
  · cases hbytes : Utf8.encode r.first.text with
    | nil => exact absurd (Utf8.encode_eq_nil hbytes) htext
    | cons b bytes =>
      have hb : b ∈ Utf8.encode r.first.text := hbytes ▸ List.mem_cons_self
      refine ⟨b, bytes ++ othersBytes r.others, ?_, ((r.first.bare hquoted).isPlain hb).2⟩
      rw [h, hbytes, List.cons_append]

/-! ## Records of a table -/

theorem isBreak_head?_dataBytes (data : List (Ending × WrittenRecord)) {trailing : List UInt8}
    (htrailing : ∀ b ∈ trailing, isBreak b = true) :
    ∀ b ∈ (WrittenTable.dataBytes data trailing).head?, isBreak b = true := by
  intro b hb
  cases data with
  | nil => exact htrailing b (List.mem_of_mem_head? hb)
  | cons e data =>
    obtain rfl : e.1.first = b := Option.some.inj hb
    exact e.1.first_break

/-- The records of a table, whatever the position and the breaks before them. -/
theorem map_cells_rows (data : List (Ending × WrittenRecord)) (r : WrittenRecord)
    {lead trailing : List UInt8} (hlead : ∀ b ∈ lead, isBreak b = true)
    (htrailing : ∀ b ∈ trailing, isBreak b = true) (p : Position) :
    (rows p (lead ++ (r.bytes ++ WrittenTable.dataBytes data trailing))).map Row.cells =
      (r :: data.map Prod.snd).map WrittenRecord.contents := by
  -- each step reads one record; the breaks left of its ending lead the next one
  induction data generalizing r lead p with
  | nil =>
    obtain ⟨b, bytes, hbytes, hb⟩ := r.exists_bytes_eq
    have hrest : ∀ c ∈ trailing.drop 1, isBreak c = true := fun c hc =>
      htrailing c (List.mem_of_mem_drop hc)
    have hdata : WrittenTable.dataBytes [] trailing = trailing := rfl
    have hrecord := record_start_record r (isBreak_head?_dataBytes [] htrailing)
    rw [hbytes, List.cons_append] at hrecord ⊢
    rw [rows_of_record hlead hb, hrecord, hdata, rows_eq_nil hrest]
    simp [WrittenRecord.contents, WrittenRecord.texts]
  | cons e data ih =>
    obtain ⟨b, bytes, hbytes, hb⟩ := r.exists_bytes_eq
    have hrecord := record_start_record r (isBreak_head?_dataBytes (e :: data) htrailing)
    have hdata : (WrittenTable.dataBytes (e :: data) trailing).drop 1 =
        e.1.others ++ (e.2.bytes ++ WrittenTable.dataBytes data trailing) := by
      simp [WrittenTable.dataBytes, Ending.bytes]
    rw [hbytes, List.cons_append] at hrecord ⊢
    rw [rows_of_record hlead hb, hrecord, hdata, List.map_cons, ih e.2 e.1.others_break]
    simp [WrittenRecord.contents, WrittenRecord.texts]

/-! ## The byte order mark -/

theorem splitMark_mark (bytes : List UInt8) :
    splitMark (WrittenTable.mark ++ bytes) = (WrittenTable.mark, bytes) := rfl

theorem splitMark_of_not_prefix {bytes : List UInt8} (h : ¬ WrittenTable.mark <+: bytes) :
    splitMark bytes = ([], bytes) := by
  unfold splitMark
  split
  · rename_i rest
    exact absurd ⟨rest, rfl⟩ h
  · rfl

theorem head?_of_isPrefix_mark {bytes : List UInt8} (h : WrittenTable.mark <+: bytes) :
    bytes.head? = some 0xEF := by
  obtain ⟨rest, rfl⟩ := h
  rfl

/-- Only one character is written as the byte order mark. -/
theorem eq_of_isPrefix_mark {c : Char} {rest : List UInt8}
    (h : WrittenTable.mark <+: String.utf8EncodeChar c ++ rest) : c = '\ufeff' := by
  obtain ⟨tail, htail⟩ := h
  have hmark : Utf8.next? (WrittenTable.mark ++ tail) = some ('\ufeff', tail) :=
    Utf8.next?_utf8EncodeChar '\ufeff' tail
  rw [htail, Utf8.next?_utf8EncodeChar] at hmark
  exact (Prod.mk.inj (Option.some.inj hmark)).1

/-- What a table is written as is not taken for a byte order mark. -/
theorem not_isPrefix_mark (t : WrittenTable) :
    ¬ WrittenTable.mark <+:
      t.leading ++ (t.header.bytes ++ WrittenTable.dataBytes t.data t.trailing) := by
  intro h
  cases hleading : t.leading with
  | cons b leading =>
    have hbreak : isBreak b = true := t.leading_break b (hleading ▸ List.mem_cons_self)
    rw [hleading] at h
    obtain rfl : b = 0xEF := Option.some.inj (head?_of_isPrefix_mark h)
    cases hbreak
  | nil =>
    rw [hleading, List.nil_append] at h
    rcases t.header.bytes_cases with ⟨rest, hbytes⟩ | ⟨rest, hbytes⟩ | ⟨hquoted, htext, hbytes⟩
    · rw [hbytes] at h
      cases head?_of_isPrefix_mark h
    · rw [hbytes] at h
      cases head?_of_isPrefix_mark h
    · cases hchars : t.header.first.text.toList with
      | nil => exact htext (String.toList_eq_nil_iff.1 hchars)
      | cons c cs =>
        rw [hbytes, Utf8.encode_eq, hchars, List.flatMap_cons, List.append_assoc,
          List.append_assoc] at h
        obtain rfl := eq_of_isPrefix_mark h
        exact t.unmarked hquoted (by rw [hchars, List.head?_cons])

theorem exists_splitMark_bytes (t : WrittenTable) :
    ∃ mark, splitMark t.bytes =
      (mark, t.leading ++ (t.header.bytes ++ WrittenTable.dataBytes t.data t.trailing)) := by
  rw [WrittenTable.bytes]
  split
  · exact ⟨_, splitMark_mark _⟩
  · exact ⟨_, splitMark_of_not_prefix (not_isPrefix_mark t)⟩

theorem map_cells_scan (t : WrittenTable) :
    (scan t.bytes).map Row.cells =
      (t.header :: t.data.map Prod.snd).map WrittenRecord.contents := by
  have hrows := map_cells_rows t.data t.header t.leading_break t.trailing_break .first
  obtain ⟨mark, hmark⟩ := exists_splitMark_bytes t
  rw [scan, hmark, ← hrows]
  simp only
  split
  · rename_i hnil
    rw [hnil]
  · rename_i header data hcons
    rw [hcons, List.map_cons, List.map_map, List.map_cons]
    rfl

/-! ## Cells by name -/

/-- The cells of a record by the names of a header: cells past the header have no name, names past
the cells no cell, and of a repeated name the last cell that is reached counts. -/
def Labels (names cells : List String) (fields : Columns String) : Prop :=
  ∀ name text, fields.get? name = some text ↔
    ∃ i, names[i]? = some name ∧ cells[i]? = some text ∧
      ∀ j, i < j → j < cells.length → names[j]? ≠ some name

/-- The last entry that passes a test. -/
theorem getLast?_filter_eq_some {α : Type} {p : α → Bool} {l : List α} {a : α} :
    (l.filter p).getLast? = some a ↔
      ∃ i : Nat, l[i]? = some a ∧ p a = true ∧ ∀ j b, i < j → l[j]? = some b → p b = false := by
  induction l using List.reverseRecOn with
  | nil => simp
  | append_singleton l b ih =>
    have hb : (l ++ [b])[l.length]? = some b := List.getElem?_concat_length
    have hl {i : Nat} (h : i < l.length) : (l ++ [b])[i]? = l[i]? := List.getElem?_append_left h
    have hlt {i : Nat} {c : α} (h : (l ++ [b])[i]? = some c) : i < l.length ∨ i = l.length := by
      have := (List.getElem?_eq_some_iff.1 h).1
      simp only [List.length_append, List.length_singleton] at this
      omega
    cases hp : p b with
    | true =>
      rw [List.filter_append, List.filter_cons_of_pos hp, List.filter_nil, List.getLast?_concat]
      constructor
      · intro h
        obtain rfl := Option.some.inj h
        refine ⟨l.length, hb, hp, fun j c hj hc => ?_⟩
        have := hlt hc
        omega
      · rintro ⟨i, hi, -, hlast⟩
        rcases hlt hi with h | rfl
        · rw [hlast _ b h hb] at hp
          cases hp
        · exact hb.symm.trans hi
    | false =>
      rw [List.filter_append, List.filter_cons_of_neg (by simp [hp]), List.filter_nil,
        List.append_nil, ih]
      constructor
      · rintro ⟨i, hi, ha, hlast⟩
        have hil := (List.getElem?_eq_some_iff.1 hi).1
        refine ⟨i, (hl hil).trans hi, ha, fun j c hj hc => ?_⟩
        rcases hlt hc with h | rfl
        · exact hlast j c hj ((hl h).symm.trans hc)
        · obtain rfl := Option.some.inj (hb.symm.trans hc)
          exact hp
      · rintro ⟨i, hi, ha, hlast⟩
        rcases hlt hi with h | rfl
        · refine ⟨i, (hl h).symm.trans hi, ha, fun j c hj hc => hlast j c hj ?_⟩
          exact (hl (List.getElem?_eq_some_iff.1 hc).1).trans hc
        · obtain rfl := Option.some.inj (hb.symm.trans hi)
          rw [hp] at ha
          cases ha

theorem labels_ofList_zip (names cells : List String) :
    Labels names cells (Columns.ofList (names.zip cells)) := by
  intro name text
  rw [Columns.get?_ofList, Option.map_eq_some_iff]
  constructor
  · rintro ⟨⟨other, value⟩, hlast, rfl⟩
    obtain ⟨i, hi, hname, hafter⟩ := getLast?_filter_eq_some.1 hlast
    obtain ⟨hn, hc⟩ := List.getElem?_zip_eq_some.1 hi
    obtain rfl : other = name := of_decide_eq_true hname
    refine ⟨i, hn, hc, fun j hj hlt hj' => ?_⟩
    have hzip : (names.zip cells)[j]? = some (other, cells[j]) :=
      List.getElem?_zip_eq_some.2 ⟨hj', List.getElem?_eq_getElem hlt⟩
    exact of_decide_eq_false (hafter j _ hj hzip) rfl
  · rintro ⟨i, hn, hc, hafter⟩
    refine ⟨(name, text), getLast?_filter_eq_some.2 ⟨i, ?_, decide_eq_true rfl, ?_⟩, rfl⟩
    · exact List.getElem?_zip_eq_some.2 ⟨hn, hc⟩
    · intro j e hj he
      obtain ⟨hn', hc'⟩ := List.getElem?_zip_eq_some.1 he
      refine decide_eq_false fun h => hafter j hj (List.getElem?_eq_some_iff.1 hc').1 ?_
      rw [hn', h]

/-! ## Texts -/

theorem decodeFrom_encode (p : Position) (field : Nat) (texts : List String) :
    decodeFrom p field (texts.map Utf8.encode) = .ok texts := by
  induction texts generalizing field with
  | nil => rfl
  | cons text texts ih =>
    rw [List.map_cons, decodeFrom, Utf8.decode_encode]
    simp only [ih, String.ofList_toList, Except.map]

theorem Row.texts_of_cells {row : Row} {r : WrittenRecord} (h : row.cells = r.contents) :
    row.texts = .ok r.texts := by
  rw [Row.texts, h]
  exact decodeFrom_encode row.position 0 r.texts

theorem exists_mapM_line (names : List String) {rows : List Row} {records : List WrittenRecord}
    (h : rows.map Row.cells = records.map WrittenRecord.contents) :
    ∃ lines, rows.mapM (Row.line names) = .ok lines ∧
      List.Forall₂ (fun line r => Labels names (WrittenRecord.texts r) line.fields)
        lines records := by
  induction records generalizing rows with
  | nil =>
    obtain rfl := List.map_eq_nil_iff.1 h
    exact ⟨[], rfl, .nil⟩
  | cons r records ih =>
    obtain ⟨row, rest, rfl, hrow, hrest⟩ := List.map_eq_cons_iff.1 h
    obtain ⟨lines, hlines, hlabels⟩ := ih hrest
    have hline : row.line names = .ok ⟨row.position.line, Columns.ofList (names.zip r.texts)⟩ := by
      rw [Row.line, Row.texts_of_cells hrow]
      rfl
    refine ⟨⟨row.position.line, Columns.ofList (names.zip r.texts)⟩ :: lines, ?_,
      .cons (labels_ofList_zip names r.texts) hlabels⟩
    rw [List.mapM_cons, hline, hlines]
    rfl

theorem exists_readTable (t : WrittenTable) :
    ∃ lines, readTable t.bytes = .ok lines ∧
      List.Forall₂ (fun line r => Labels t.header.texts (WrittenRecord.texts r) line.fields)
        lines (t.data.map Prod.snd) := by
  obtain ⟨header, data, hscan, hheader, hdata⟩ := List.map_eq_cons_iff.1 (map_cells_scan t)
  obtain ⟨lines, hlines, hlabels⟩ := exists_mapM_line t.header.texts hdata
  refine ⟨lines, ?_, hlabels⟩
  rw [readTable, hscan]
  simp only [Row.texts_of_cells hheader]
  exact hlines

end SweepCharts.Csv

namespace SweepCharts

open Csv

/-- **A table reads back as it was written**, whichever cells are in quotes and whatever bytes end its
records: one row for each data record, in their order, with the cells of the record by the names of
the header. -/
theorem readRows_written (file : String) (t : WrittenTable) :
    ∃ rows, readRows file t.bytes = .ok rows ∧
      List.Forall₂ (fun row record => row.origin.file = file ∧
        Labels t.header.texts (WrittenRecord.texts record) row.fields)
        rows (t.data.map Prod.snd) := by
  obtain ⟨lines, hlines, hlabels⟩ := exists_readTable t
  refine ⟨lines.map fun line => ⟨⟨file, line.number⟩, line.fields⟩, ?_, ?_⟩
  · rw [readRows, hlines]
    rfl
  · rw [List.forall₂_map_left_iff]
    exact hlabels.imp fun line record h => ⟨rfl, h⟩

end SweepCharts
