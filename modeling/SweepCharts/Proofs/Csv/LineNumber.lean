import Mathlib.Data.List.DropRight
import SweepCharts.Proofs.Csv.Scanner
import SweepCharts.Proofs.Traversal
import SweepCharts.Sweep.Loading

set_option autoImplicit false

/-! # The lines of rows

A row carries the line on which the record before it ended. This is the line on which the row begins
unless an LF byte stands between them: the second byte of a CRLF ending, or a blank line.

* `record_ends`: a record that does not reach the end of the text takes one break after its cells.
* `forall₂_rows`: the line of every record but the first, by the LF bytes skipped before it.
* `line_of_readRows`: the same for rows, and when their lines are right.
-/

namespace SweepCharts.Csv

/-! ## Where records start -/

/-- The offsets of the first bytes of records, for a text that goes on at an offset. -/
def startsFrom (offset : Nat) (bytes : List UInt8) : List Nat :=
  match h : bytes.dropWhile isBreak with
  | [] => []
  | b :: body =>
    have := length_rest_lt_of_dropWhile h
    let start := offset + (bytes.takeWhile isBreak).length
    let r := record .start (b :: body)
    start :: startsFrom (start + r.taken.length) r.rest
termination_by bytes.length

/-- The offsets of the first bytes of the records of a text. -/
def starts (bytes : List UInt8) : List Nat :=
  startsFrom (splitMark bytes).1.length (splitMark bytes).2

/-- The cells of the record that starts at an offset. -/
def cellsAt (bytes : List UInt8) (start : Nat) : List (List UInt8) :=
  let r := record .start (bytes.drop start)
  r.cell :: r.others

/-- The line of a byte, from 1. -/
def physicalLine (bytes : List UInt8) (offset : Nat) : Nat :=
  1 + (bytes.take offset).count lineFeed

/-- The breaks before a record, without the one that ends the record before it. -/
def skipped (bytes : List UInt8) (start : Nat) : List UInt8 :=
  ((bytes.take start).rtakeWhile isBreak).drop 1

/-- A text is breaks only, or it has a record after some of them. -/
theorem exists_lead (bytes : List UInt8) :
    (∀ b ∈ bytes, isBreak b = true) ∨
      ∃ lead b body, bytes = lead ++ b :: body ∧ (∀ c ∈ lead, isBreak c = true) ∧
        isBreak b = false := by
  cases hbody : bytes.dropWhile isBreak with
  | nil => exact .inl (List.dropWhile_eq_nil_iff.1 hbody)
  | cons b body =>
    refine .inr ⟨bytes.takeWhile isBreak, b, body, ?_, fun c hc => List.mem_takeWhile_imp hc, ?_⟩
    · rw [← hbody, List.takeWhile_append_dropWhile]
    · have hhead := List.head?_dropWhile_not isBreak bytes
      rw [hbody] at hhead
      simpa using hhead

theorem startsFrom_of_breaks {offset : Nat} {bytes : List UInt8}
    (h : ∀ b ∈ bytes, isBreak b = true) : startsFrom offset bytes = [] := by
  have hnil : bytes.dropWhile isBreak = [] := List.dropWhile_eq_nil_iff.2 h
  rw [startsFrom]
  split
  · rfl
  · rename_i hcons
    rw [hnil] at hcons
    cases hcons

theorem startsFrom_of_record {offset : Nat} {lead body : List UInt8} {b : UInt8}
    (hlead : ∀ c ∈ lead, isBreak c = true) (hb : isBreak b = false) :
    startsFrom offset (lead ++ b :: body) =
      (offset + lead.length) :: startsFrom
        (offset + lead.length + (record .start (b :: body)).taken.length)
        (record .start (b :: body)).rest := by
  have hdrop := dropWhile_isBreak_append hlead hb body
  rw [startsFrom]
  split
  · rename_i hnil
    rw [hdrop] at hnil
    cases hnil
  · rename_i hcons
    rw [takeWhile_isBreak_append hlead hb]
    obtain ⟨rfl, rfl⟩ := List.cons.inj (hdrop.symm.trans hcons)
    rfl

/-! ## How a record ends -/

/-- A break ends a record unless it stands in quotes. -/
theorem action_of_isBreak {b : UInt8} (h : isBreak b = true) (mode : Mode) :
    mode.action b = if mode = .quoted then .keep .quoted else .endRecord := by
  have hquote : b ≠ quote := by
    rintro rfl
    rw [isBreak_quote] at h
    cases h
  cases mode <;> simp [Mode.action, hquote, bareAction_of_isBreak h]

/-- Nothing else ends a record. -/
theorem action_ne_endRecord {b : UInt8} (h : isBreak b = false) (mode : Mode) :
    mode.action b ≠ .endRecord := by
  have hbare : bareAction b ≠ .endRecord := by
    unfold bareAction
    rw [h]
    split <;> simp
  by_cases hquote : b = quote
  · rw [hquote]
    cases mode <;> decide
  · cases mode <;> simp [Mode.action, hquote, hbare]

/-- What a byte of a record does: it ends the record, or the record goes on after it. The record
goes on after a break only in quotes. -/
theorem record_cons (mode : Mode) (b : UInt8) (bytes : List UInt8) :
    (isBreak b = true ∧ mode ≠ .quoted ∧ record mode (b :: bytes) = ⟨[], [], [b], bytes⟩) ∨
      ∃ next, (isBreak b = true → next = .quoted) ∧
        (record mode (b :: bytes)).taken = b :: (record next bytes).taken ∧
        (record mode (b :: bytes)).rest = (record next bytes).rest := by
  cases hb : isBreak b with
  | true =>
    have haction := action_of_isBreak hb mode
    by_cases hmode : mode = .quoted
    · rw [if_pos hmode] at haction
      rw [record_keep haction]
      exact .inr ⟨.quoted, fun _ => rfl, rfl, rfl⟩
    · rw [if_neg hmode] at haction
      rw [record, haction]
      exact .inl ⟨rfl, hmode, rfl⟩
  | false =>
    have hnone (next : Mode) : false = true → next = .quoted := fun h => absurd h Bool.false_ne_true
    cases haction : mode.action b with
    | keep next =>
      rw [record_keep haction]
      exact .inr ⟨next, hnone next, rfl, rfl⟩
    | drop next =>
      rw [record_drop haction]
      exact .inr ⟨next, hnone next, rfl, rfl⟩
    | endCell =>
      rw [record, haction]
      exact .inr ⟨.start, hnone .start, rfl, rfl⟩
    | endRecord => exact absurd haction (action_ne_endRecord hb mode)

/-- A text that ends with one break and no more. -/
def EndsRecord (bytes : List UInt8) : Prop :=
  ∃ front b, bytes = front ++ [b] ∧ isBreak b = true ∧ ∀ c ∈ front.getLast?, isBreak c = false

/-- **A record that does not reach the end of the text takes one break after its cells.** In quotes
there is at least a quote before it. -/
theorem record_ends {mode : Mode} {bytes : List UInt8} (hrest : (record mode bytes).rest ≠ []) :
    ∃ front b, (record mode bytes).taken = front ++ [b] ∧ isBreak b = true ∧
      (∀ c ∈ front.getLast?, isBreak c = false) ∧ (mode = .quoted → front ≠ []) := by
  induction bytes generalizing mode with
  | nil => exact absurd rfl hrest
  | cons b bytes ih =>
    rcases record_cons mode b bytes with ⟨hb, hmode, hrecord⟩ | ⟨next, hnext, htaken, hrest'⟩
    · refine ⟨[], b, by rw [hrecord, List.nil_append], hb, ?_, fun h => absurd h hmode⟩
      intro c hc
      cases hc
    · rw [hrest'] at hrest
      obtain ⟨front, e, hfront, he, hlast, hquoted⟩ := ih hrest
      refine ⟨b :: front, e, by rw [htaken, hfront, List.cons_append], he, ?_,
        fun _ => List.cons_ne_nil _ _⟩
      intro c hc
      cases front with
      | cons d front =>
        rw [List.getLast?_cons_cons] at hc
        exact hlast c hc
      | nil =>
        obtain rfl : b = c := Option.some.inj hc
        cases hb : isBreak b with
        | false => rfl
        | true => exact absurd rfl (hquoted (hnext hb))

/-- What is read up to the end of a record ends with one break, if the text goes on. -/
theorem endsRecord_append (before : List UInt8) {b : UInt8} {body : List UInt8}
    (hb : isBreak b = false) (hrest : (record .start (b :: body)).rest ≠ []) :
    EndsRecord (before ++ (record .start (b :: body)).taken) := by
  obtain ⟨front, e, htaken, he, hlast, -⟩ := record_ends hrest
  refine ⟨before ++ front, e, by rw [htaken, List.append_assoc], he, ?_⟩
  cases front with
  | cons d front =>
    rw [List.getLast?_append_of_ne_nil _ (List.cons_ne_nil d front)]
    exact hlast
  | nil =>
    -- the record would be its break only, but it starts with another byte
    have hall := taken_append_rest .start (b :: body)
    rw [htaken] at hall
    obtain rfl : e = b := (List.cons.inj hall).1
    rw [he] at hb
    cases hb

/-! ## The line of a record -/

/-- A row is the record at an offset, and its line is behind by the LF bytes skipped before it. -/
structure Located (bytes : List UInt8) (row : Row) (start : Nat) : Prop where
  cells : row.cells = cellsAt bytes start
  line : row.position.line + (skipped bytes start).count lineFeed = physicalLine bytes start

theorem take_start (before lead body : List UInt8) :
    (before ++ (lead ++ body)).take (before.length + lead.length) = before ++ lead := by
  rw [← List.append_assoc, ← List.length_append, List.take_left]

/-- After one break that ends a record, all further ones are skipped. -/
theorem skipped_eq {before lead : List UInt8} (hends : EndsRecord before)
    (hlead : ∀ b ∈ lead, isBreak b = true) (body : List UInt8) :
    skipped (before ++ (lead ++ body)) (before.length + lead.length) = lead := by
  obtain ⟨front, b, rfl, hb, hlast⟩ := hends
  have hfront : front.reverse.takeWhile isBreak = [] := by
    cases hrev : front.reverse with
    | nil => rfl
    | cons c rest =>
      have hc : c ∈ front.getLast? := by rw [← List.head?_reverse, hrev]; rfl
      rw [List.takeWhile_cons_of_neg (by rw [hlast c hc]; exact Bool.false_ne_true)]
  have hrun : (front ++ [b] ++ lead).rtakeWhile isBreak = b :: lead := by
    rw [List.rtakeWhile, List.reverse_append, List.reverse_append, List.reverse_singleton,
      List.takeWhile_append_of_pos fun c hc => hlead c (List.mem_reverse.1 hc),
      List.singleton_append, List.takeWhile_cons_of_pos hb, hfront, List.reverse_append,
      List.reverse_reverse, List.reverse_singleton, List.singleton_append]
  rw [skipped, take_start, hrun]
  rfl

theorem located_first {before lead : List UInt8} {p : Position}
    (hline : p.line = 1 + before.count lineFeed) (hends : EndsRecord before)
    (hlead : ∀ b ∈ lead, isBreak b = true) (body : List UInt8) :
    Located (before ++ (lead ++ body))
      ⟨p, (record .start body).cell :: (record .start body).others⟩
      (before.length + lead.length) := by
  refine ⟨?_, ?_⟩
  · rw [cellsAt, ← List.append_assoc, ← List.length_append, List.drop_left]
  · rw [skipped_eq hends hlead, physicalLine, take_start, List.count_append, hline]
    omega

/-- The state between two records: where the last one ended, what was read, and what is left. -/
structure Between (p : Position) (before bytes : List UInt8) : Prop where
  line : p.line = 1 + before.count lineFeed
  ends : bytes ≠ [] → EndsRecord before

/-- One more record, after any breaks. The bytes before them need not end a record, so this holds of
the first one too. -/
theorem between_after {p : Position} {before : List UInt8}
    (hline : p.line = 1 + before.count lineFeed) (lead : List UInt8) {b : UInt8}
    (hb : isBreak b = false) (body : List UInt8) :
    let r := record .start (b :: body)
    Between (p.after (lead ++ r.taken)) (before ++ (lead ++ r.taken)) r.rest := by
  intro r
  refine ⟨?_, fun hne => ?_⟩
  · rw [List.count_append, ← Nat.add_assoc, ← hline]
    rfl
  · rw [← List.append_assoc]
    exact endsRecord_append _ hb hne

/-- **The lines of all records** that follow a record, by induction over the records. -/
theorem forall₂_rows {p : Position} {before bytes : List UInt8} (h : Between p before bytes) :
    List.Forall₂ (Located (before ++ bytes)) (rows p bytes) (startsFrom before.length bytes) := by
  induction hn : bytes.length using Nat.strong_induction_on generalizing p before bytes with
  | _ n ih =>
  rcases exists_lead bytes with hall | ⟨lead, b, body, rfl, hlead, hb⟩
  · rw [rows_eq_nil hall, startsFrom_of_breaks hall]
    exact .nil
  · rw [rows_of_record hlead hb, startsFrom_of_record hlead hb]
    refine .cons (located_first h.line (h.ends (by simp)) hlead _) ?_
    have hnext := between_after h.line lead hb body
    have hbytes := taken_append_rest .start (b :: body)
    have hlt := length_rest_lt .start b body
    generalize record .start (b :: body) = r at hnext hbytes hlt ⊢
    have hlength : r.rest.length < n := by
      rw [← hn, List.length_append]
      omega
    have hrows := ih _ hlength hnext rfl
    rw [List.append_assoc, List.append_assoc, hbytes, List.length_append, List.length_append,
      ← Nat.add_assoc] at hrows
    exact hrows

/-! ## The lines of rows -/

theorem splitMark_append (bytes : List UInt8) :
    (splitMark bytes).1 ++ (splitMark bytes).2 = bytes := by
  unfold splitMark
  split <;> rfl

theorem count_splitMark (bytes : List UInt8) : (splitMark bytes).1.count lineFeed = 0 := by
  unfold splitMark
  split <;> rfl

theorem forall₂_scan (bytes : List UInt8) :
    List.Forall₂ (Located bytes) (scan bytes).tail (starts bytes).tail := by
  have hbytes := splitMark_append bytes
  have hmark := count_splitMark bytes
  unfold scan starts
  generalize splitMark bytes = split at hbytes hmark ⊢
  obtain ⟨mark, text⟩ := split
  subst hbytes
  simp only
  rcases exists_lead text with hall | ⟨lead, b, body, rfl, hlead, hb⟩
  · rw [rows_eq_nil hall, startsFrom_of_breaks hall]
    exact .nil
  · rw [rows_of_record hlead hb, startsFrom_of_record hlead hb]
    have hline : Position.first.line = 1 + mark.count lineFeed := by rw [hmark]; rfl
    have hnext := between_after hline lead hb body
    have hbytes := taken_append_rest .start (b :: body)
    generalize record .start (b :: body) = r at hnext hbytes ⊢
    have hrows := forall₂_rows hnext
    rw [List.append_assoc, List.append_assoc, hbytes, List.length_append, List.length_append,
      ← Nat.add_assoc] at hrows
    simp only [List.tail_cons]
    rw [List.forall₂_map_left_iff]
    exact hrows.imp fun row start h => ⟨h.cells, h.line⟩

theorem forall₂_of_mapM_line {names : List String} {R : Row → Nat → Prop} {rows : List Row}
    {starts : List Nat} (hR : List.Forall₂ R rows starts) {lines : List Line}
    (h : rows.mapM (Row.line names) = .ok lines) :
    List.Forall₂ (fun line start => ∃ row, row.line names = .ok line ∧ R row start)
      lines starts := by
  rw [mapM_eq_ok_iff] at h
  induction hR generalizing lines with
  | nil =>
    obtain rfl := List.forall₂_nil_left_iff.1 h
    exact .nil
  | cons hrow _ ih =>
    obtain ⟨line, rest, hline, hrest, rfl⟩ := List.forall₂_cons_left_iff.1 h
    exact .cons ⟨_, hline, hrow⟩ (ih hrest)

/-- The row of the record at an offset. -/
def IsRowAt (names : List String) (bytes : List UInt8) (start : Nat) (row : SourceRow) : Prop :=
  ∃ p texts, decodeFrom p 0 (cellsAt bytes start) = .ok texts ∧
    row.fields = Columns.ofList (names.zip texts)

theorem line_eq_ok {names : List String} {row : Row} {line : Line}
    (h : row.line names = .ok line) :
    ∃ texts, decodeFrom row.position 0 row.cells = .ok texts ∧
      line = ⟨row.position.line, Columns.ofList (names.zip texts)⟩ := by
  unfold Row.line Row.texts at h
  cases htexts : decodeFrom row.position 0 row.cells with
  | error e =>
    rw [htexts] at h
    cases h
  | ok texts =>
    rw [htexts] at h
    cases h
    exact ⟨texts, rfl, rfl⟩

/-- The names of a header: the texts of the first record, if there is one. -/
def IsHeader (names : List String) (bytes : List UInt8) : Prop :=
  ∀ start ∈ (starts bytes).head?, ∃ p, decodeFrom p 0 (cellsAt bytes start) = .ok names

/-- The first record of a table starts at the first offset. -/
theorem map_cells_head?_scan (bytes : List UInt8) :
    (scan bytes).head?.map Row.cells = (starts bytes).head?.map (cellsAt bytes) := by
  have hbytes := splitMark_append bytes
  unfold scan starts
  generalize splitMark bytes = split at hbytes ⊢
  obtain ⟨mark, text⟩ := split
  subst hbytes
  simp only
  rcases exists_lead text with hall | ⟨lead, b, body, rfl, hlead, hb⟩
  · rw [rows_eq_nil hall, startsFrom_of_breaks hall]
    rfl
  · rw [rows_of_record hlead hb, startsFrom_of_record hlead hb]
    simp only [List.head?_cons, Option.map_some]
    rw [cellsAt, ← List.append_assoc, ← List.length_append, List.drop_left]

/-- The lines of a table are its records after the header, under the names of the header. -/
theorem exists_readTable_header_line {bytes : List UInt8} {lines : List Line}
    (h : readTable bytes = .ok lines) :
    ∃ names, IsHeader names bytes ∧
      List.Forall₂ (fun line start => ∃ row, Row.line names row = .ok line ∧
        Located bytes row start) lines (starts bytes).tail := by
  have hrows := forall₂_scan bytes
  have hheader := map_cells_head?_scan bytes
  unfold readTable at h
  cases hscan : scan bytes with
  | nil =>
    rw [hscan] at h hrows hheader
    cases h
    rw [List.tail_nil, List.forall₂_nil_left_iff] at hrows
    refine ⟨[], fun start hstart => ?_, hrows ▸ .nil⟩
    rw [hstart] at hheader
    cases hheader
  | cons header data =>
    rw [hscan] at h hrows hheader
    cases hnames : header.texts with
    | error e =>
      simp only [hnames] at h
      cases h
    | ok names =>
      simp only [hnames] at h
      refine ⟨names, fun start hstart => ⟨header.position, ?_⟩, forall₂_of_mapM_line hrows h⟩
      rw [hstart] at hheader
      rw [← Option.some.inj hheader]
      exact hnames

theorem exists_readTable_line {bytes : List UInt8} {lines : List Line}
    (h : readTable bytes = .ok lines) :
    ∃ names, List.Forall₂ (fun line start => ∃ row, Row.line names row = .ok line ∧
      Located bytes row start) lines (starts bytes).tail := by
  obtain ⟨names, -, hlines⟩ := exists_readTable_header_line h
  exact ⟨names, hlines⟩

end SweepCharts.Csv

namespace SweepCharts

open Csv

/-- **A row carries the line on which it begins, less the LF bytes skipped before it.** The line is
right if and only if no LF is among the breaks directly before the row, but for the first of them,
which ends the record before. -/
theorem line_of_readRows {file : String} {bytes : List UInt8} {rows : List SourceRow}
    (h : readRows file bytes = .ok rows) :
    ∃ names, List.Forall₂ (fun row start => IsRowAt names bytes start row ∧
      row.origin.line + (skipped bytes start).count lineFeed = physicalLine bytes start ∧
      (row.origin.line = physicalLine bytes start ↔ lineFeed ∉ skipped bytes start))
      rows (starts bytes).tail := by
  unfold readRows at h
  cases hlines : readTable bytes with
  | error e =>
    rw [hlines] at h
    cases h
  | ok lines =>
    rw [hlines] at h
    cases h
    obtain ⟨names, hrows⟩ := exists_readTable_line hlines
    refine ⟨names, ?_⟩
    rw [List.forall₂_map_left_iff]
    refine hrows.imp fun line start hline => ?_
    obtain ⟨row, hrow, hlocated⟩ := hline
    obtain ⟨texts, htexts, rfl⟩ := line_eq_ok hrow
    have hcount := hlocated.line
    refine ⟨⟨row.position, texts, hlocated.cells ▸ htexts, rfl⟩, hcount, ?_⟩
    rw [← List.count_eq_zero]
    show row.position.line = _ ↔ _
    constructor
    · intro heq
      omega
    · intro hzero
      omega

/-- A blank line before the second row. -/
theorem line_of_readRows_blank_line :
    readRows "in.csv" (Utf8.encode "a\n1\n\n2\n") =
        .ok [⟨⟨"in.csv", 2⟩, .ofList [("a", "1")]⟩, ⟨⟨"in.csv", 3⟩, .ofList [("a", "2")]⟩] ∧
      ∃ names, List.Forall₂ (fun row start =>
        IsRowAt names (Utf8.encode "a\n1\n\n2\n") start row ∧
        row.origin.line + (skipped (Utf8.encode "a\n1\n\n2\n") start).count lineFeed =
          physicalLine (Utf8.encode "a\n1\n\n2\n") start ∧
        (row.origin.line = physicalLine (Utf8.encode "a\n1\n\n2\n") start ↔
          lineFeed ∉ skipped (Utf8.encode "a\n1\n\n2\n") start))
        [⟨⟨"in.csv", 2⟩, .ofList [("a", "1")]⟩, ⟨⟨"in.csv", 3⟩, .ofList [("a", "2")]⟩]
        (starts (Utf8.encode "a\n1\n\n2\n")).tail :=
  have h : readRows "in.csv" (Utf8.encode "a\n1\n\n2\n") =
      .ok [⟨⟨"in.csv", 2⟩, .ofList [("a", "1")]⟩, ⟨⟨"in.csv", 3⟩, .ofList [("a", "2")]⟩] := by
    decide +kernel
  ⟨h, line_of_readRows h⟩

/-- With CRLF endings the first row is given the line of the header. -/
theorem not_line_eq_physicalLine :
    ¬ ∀ file bytes rows, readRows file bytes = .ok rows →
      List.Forall₂ (fun row start => row.origin.line = physicalLine bytes start)
        rows (starts bytes).tail := by
  intro h
  have hrows : readRows "in.csv" (Utf8.encode "a\r\n1\r\n") =
      .ok [⟨⟨"in.csv", 1⟩, .ofList [("a", "1")]⟩] := by decide +kernel
  have hstarts : (starts (Utf8.encode "a\r\n1\r\n")).tail = [3] := by decide +kernel
  have hline := h _ _ _ hrows
  rw [hstarts, List.forall₂_cons] at hline
  exact absurd hline.1 (by decide +kernel)

end SweepCharts
