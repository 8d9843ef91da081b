import SweepCharts.Proofs.Cell.Coercion
import SweepCharts.Proofs.Csv.Encoding
import SweepCharts.Proofs.Slice.ColumnOrder

set_option autoImplicit false

/-! # The sheet of a slice sweep

A file of text is a sheet: the names of the columns, and the records with their places, every text
between the blanks at its ends. The loader drops blank bytes before it reads a cell as text, and
blank characters after that. Blank bytes are blank characters of one byte, so both steps together
drop the blank characters.

* `readText?_encode`: a cell of text is the text between its blanks.
* `Sheet.exists_isOf`: **a file of text is a sheet**, with its records numbered in their order.
* `Sheet.readTable_eq`: its rows are read from the sheet.
-/

namespace SweepCharts

open Csv (Error Position Row rows scan)
open SliceRow (isBlankByte ofNamed ofRow readTable readText? textsOf trimText)

/-! ## Blanks at the ends -/

/-- Whatever is dropped at the ends may be there. -/
theorem trimBoth_append {α : Type} {drop : α → Bool} {before text after : List α}
    (hbefore : ∀ c ∈ before, drop c = true) (hafter : ∀ c ∈ after, drop c = true) :
    trimBoth drop (before ++ (text ++ after)) = trimBoth drop text := by
  obtain ⟨left, right, htext, hleft, hright, hfirst, hlast⟩ := exists_trimBoth drop text
  have hparts : before ++ (text ++ after) =
      before ++ left ++ (trimBoth drop text ++ (right ++ after)) := by
    conv_lhs => rw [htext]
    simp only [List.append_assoc]
  rw [hparts, trimBoth_parts (List.forall_mem_append.2 ⟨hbefore, hleft⟩)
    (List.forall_mem_append.2 ⟨hright, hafter⟩) hfirst hlast]

theorem toNat_lt_of_isBlankByte {b : UInt8} (h : isBlankByte b = true) : b.toNat < 0x80 := by
  simp only [isBlankByte, Bool.or_eq_true, beq_iff_eq] at h
  rcases h with (((rfl | rfl) | rfl) | rfl) | rfl <;> decide

/-- A character whose bytes are blank. -/
def isBlankInBytes (c : Char) : Bool := (String.utf8EncodeChar c).all isBlankByte

theorem isBlankChar_of_isBlankInBytes {c : Char} (h : isBlankInBytes c = true) :
    isBlankChar c = true := by
  rcases Utf8.utf8EncodeChar_cases c with ⟨b, hb⟩ | ⟨b, tail, hb, hhigh⟩
  · have hblank : isBlankByte b = true := by
      rw [isBlankInBytes, hb] at h
      simpa using h
    have hnat := Utf8.toNat_of_mem_utf8EncodeChar (c := c) (by rw [hb]; exact .head _)
      (toNat_lt_of_isBlankByte hblank)
    simp only [isBlankByte, Bool.or_eq_true, beq_iff_eq] at hblank
    rw [isBlankChar, hnat]
    rcases hblank with (((rfl | rfl) | rfl) | rfl) | rfl <;> decide
  · rw [isBlankInBytes, hb] at h
    have hlt := toNat_lt_of_isBlankByte (List.all_eq_true.1 h b (.head _))
    have hle := hhigh b (.head _)
    omega

/-- Of a character that is not blank, no byte is. -/
theorem isBlankByte_eq_false {c : Char} (h : isBlankInBytes c = false) :
    ∀ b ∈ String.utf8EncodeChar c, isBlankByte b = false := by
  rcases Utf8.utf8EncodeChar_cases c with ⟨d, hd⟩ | ⟨d, tail, hd, hhigh⟩
  · rw [isBlankInBytes, hd] at h
    rw [hd]
    simpa using h
  · rw [hd]
    intro b hb
    rw [Bool.eq_false_iff]
    intro hblank
    have hlt := toNat_lt_of_isBlankByte hblank
    have hle := hhigh b hb
    omega

theorem head?_flatMap_bytes {text : List Char} (h : ∀ c ∈ text.head?, isBlankInBytes c = false) :
    ∀ b ∈ (text.flatMap String.utf8EncodeChar).head?, isBlankByte b = false := by
  cases text with
  | nil => exact fun b hb => nomatch hb
  | cons c text =>
    intro b hb
    have hne : String.utf8EncodeChar c ≠ [] := String.utf8EncodeChar_ne_nil
    rw [List.flatMap_cons, List.head?_append_of_ne_nil _ hne] at hb
    exact isBlankByte_eq_false (h c rfl) b (List.mem_of_mem_head? hb)

theorem getLast?_flatMap_bytes {text : List Char}
    (h : ∀ c ∈ text.getLast?, isBlankInBytes c = false) :
    ∀ b ∈ (text.flatMap String.utf8EncodeChar).getLast?, isBlankByte b = false := by
  induction text using List.reverseRecOn with
  | nil => exact fun b hb => nomatch hb
  | append_singleton text c _ =>
    intro b hb
    have hne : String.utf8EncodeChar c ≠ [] := String.utf8EncodeChar_ne_nil
    rw [List.flatMap_append, List.flatMap_singleton, List.getLast?_append_of_ne_nil _ hne] at hb
    exact isBlankByte_eq_false (h c List.getLast?_concat) b (List.mem_of_getLast? hb)

/-- The bytes of a text, without blank ones at the ends, are those of a part of it. -/
theorem trimBoth_flatMap (text : List Char) :
    trimBoth isBlankByte (text.flatMap String.utf8EncodeChar) =
      (trimBoth isBlankInBytes text).flatMap String.utf8EncodeChar := by
  obtain ⟨before, after, htext, hbefore, hafter, hfirst, hlast⟩ :=
    exists_trimBoth isBlankInBytes text
  have hblank {chars : List Char} (h : ∀ c ∈ chars, isBlankInBytes c = true) :
      ∀ b ∈ chars.flatMap String.utf8EncodeChar, isBlankByte b = true := by
    intro b hb
    obtain ⟨c, hc, hbc⟩ := List.mem_flatMap.1 hb
    exact List.all_eq_true.1 (h c hc) b hbc
  conv_lhs => rw [htext, List.flatMap_append, List.flatMap_append]
  exact trimBoth_parts (hblank hbefore) (hblank hafter) (head?_flatMap_bytes hfirst)
    (getLast?_flatMap_bytes hlast)

/-- **A cell of text** is the text between its blanks. -/
theorem readText?_encode (whole : String) :
    readText? (Utf8.encode whole) = some (String.ofList (trimmed whole)) := by
  obtain ⟨before, after, hwhole, hbefore, hafter, -⟩ :=
    exists_trimBoth isBlankInBytes whole.toList
  have htrimmed : trimmed (String.ofList (trimBoth isBlankInBytes whole.toList)) =
      trimmed whole := by
    rw [trimmed, String.toList_ofList, trimmed, hwhole,
      trimBoth_append (fun c hc => isBlankChar_of_isBlankInBytes (hbefore c hc))
        fun c hc => isBlankChar_of_isBlankInBytes (hafter c hc), ← hwhole]
  unfold readText?
  rw [Utf8.encode_eq, trimBoth_flatMap, Utf8.decode_flatMap]
  dsimp only
  rw [trimText, htrimmed]

/-- The text of a cell and the text between its blanks. -/
def ShowsText (cell : List UInt8) (text : String) : Prop :=
  ∃ whole : String, cell = Utf8.encode whole ∧ Trims whole text.toList

theorem readText?_of_showsText {cell : List UInt8} {text : String} (h : ShowsText cell text) :
    readText? cell = some text := by
  obtain ⟨whole, rfl, htrims⟩ := h
  rw [readText?_encode, trims_iff.1 htrims, String.ofList_toList]

theorem exists_showsText {cell : List UInt8} (h : Utf8.IsText cell) :
    ∃ text, ShowsText cell text := by
  obtain ⟨whole, rfl⟩ := h
  exact ⟨String.ofList (trimmed whole), whole, rfl, trims_iff.2 String.toList_ofList.symm⟩

theorem textsOf_of_forall₂ {row : Row} {texts : List String}
    (h : List.Forall₂ ShowsText row.cells texts) : textsOf row = .ok texts :=
  SliceRow.textsOf_eq_ok_iff.2 (h.imp fun _ _ => readText?_of_showsText)

theorem exists_forall₂_showsText {cells : List (List UInt8)}
    (h : ∀ cell ∈ cells, Utf8.IsText cell) : ∃ texts, List.Forall₂ ShowsText cells texts :=
  exists_forall₂ fun cell hcell => exists_showsText (h cell hcell)

/-! ## Numbers of records -/

namespace Csv

/-- **Records are numbered in their order**, by induction over them. -/
theorem map_record_rows (p : Position) (bytes : List UInt8) :
    (rows p bytes).map (·.position.record) = List.range' p.record (rows p bytes).length := by
  induction hn : bytes.length using Nat.strong_induction_on generalizing p bytes with
  | _ n ih =>
  rcases exists_lead bytes with hall | ⟨lead, b, body, rfl, hlead, hb⟩
  · rw [rows_eq_nil hall]
    rfl
  · have hlt := length_rest_lt .start b body
    rw [rows_of_record hlead hb, List.map_cons, List.length_cons, List.range'_succ]
    congr 1
    refine ih _ ?_ _ _ rfl
    rw [← hn, List.length_append]
    omega

theorem map_record_scan (bytes : List UInt8) :
    (scan bytes).map (·.position.record) = List.range (scan bytes).length := by
  have hrows := map_record_rows .first (splitMark bytes).2
  unfold scan
  generalize splitMark bytes = split at hrows ⊢
  dsimp only
  cases hrow : rows .first split.2 with
  | nil => rfl
  | cons header data =>
    rw [hrow, show Position.first.record = 0 from rfl, ← List.range_eq_range'] at hrows
    simpa [Function.comp_def] using hrows

end Csv

/-! ## Sheets -/

/-- A record by its place and the texts of its cells. -/
structure Entry where
  position : Position
  cells : List String

/-- A table by the names of its columns and its records. -/
structure Sheet where
  names : List String
  entries : List Entry

/-- Where a record stands and what its cells are between their blanks. -/
structure Entry.IsOf (entry : Entry) (row : Row) : Prop where
  position : entry.position = row.position
  cells : List.Forall₂ ShowsText row.cells entry.cells

theorem Entry.exists_isOf {row : Row} (h : ∀ cell ∈ row.cells, Utf8.IsText cell) :
    ∃ entry : Entry, entry.IsOf row := by
  obtain ⟨texts, htexts⟩ := exists_forall₂_showsText h
  exact ⟨⟨row.position, texts⟩, rfl, htexts⟩

namespace Sheet

/-- The sheet of a file; an empty one has neither names nor records. -/
inductive IsOf : Sheet → List Row → Prop
  | empty : IsOf ⟨[], []⟩ []
  | table {header : Row} {data : List Row} {names : List String} {entries : List Entry}
      (names_of : List.Forall₂ ShowsText header.cells names)
      (entries_of : List.Forall₂ (fun row entry => entry.IsOf row) data entries) :
      IsOf ⟨names, entries⟩ (header :: data)

/-- The header is record 0. -/
theorem IsOf.map_record {s : Sheet} {bytes : List UInt8} (h : s.IsOf (scan bytes)) :
    s.entries.map (·.position.record) = List.range' 1 s.entries.length := by
  have hrecords := Csv.map_record_scan bytes
  generalize scan bytes = records at h hrecords
  cases h with
  | empty => rfl
  | @table header data names entries hnames hentries =>
    have hpositions : entries.map (·.position.record) = data.map (·.position.record) := by
      rw [← List.forall₂_eq_eq_eq, List.forall₂_map_left_iff, List.forall₂_map_right_iff]
      exact hentries.flip.imp fun entry row hentry => by rw [hentry.position]
    rw [List.range_eq_range', List.length_cons, List.range'_succ, List.map_cons] at hrecords
    rw [hpositions, ← hentries.length_eq]
    exact (List.cons.inj hrecords).2

/-- **A file of text is a sheet.** -/
theorem exists_isOf {bytes : List UInt8} (h : Utf8.IsText bytes) :
    ∃ s : Sheet, s.IsOf (scan bytes) := by
  have hscan := Csv.isText_scan h
  generalize scan bytes = records at hscan ⊢
  cases records with
  | nil => exact ⟨_, .empty⟩
  | cons header data =>
    obtain ⟨names, hnames⟩ := exists_forall₂_showsText (hscan header (.head _))
    obtain ⟨entries, hentries⟩ := exists_forall₂ fun row hrow =>
      Entry.exists_isOf (hscan row (.tail _ hrow))
    exact ⟨_, .table hnames hentries⟩

/-- The row of a record of the sheet. -/
def read (s : Sheet) (entry : Entry) : Except Error SliceRow :=
  if entry.cells.length = s.names.length then
    (ofNamed s.names entry.cells).mapError (.cell entry.position)
  else .error (.length entry.position entry.cells.length s.names.length)

theorem ofRow_eq {header row : Row} {names : List String} {entry : Entry}
    (hnames : List.Forall₂ ShowsText header.cells names) (hentry : entry.IsOf row)
    (entries : List Entry) :
    ofRow header.cells.length (some names) row = read ⟨names, entries⟩ entry := by
  unfold ofRow read
  rw [hnames.length_eq, hentry.cells.length_eq, ← hentry.position,
    textsOf_of_forall₂ hentry.cells]
  by_cases hlength : entry.cells.length = names.length
  · rw [if_neg (not_not_intro hlength), if_pos hlength]
    rfl
  · rw [if_pos hlength, if_neg hlength]
    rfl

/-- **The rows of a file are read from its sheet.** -/
theorem readTable_eq {s : Sheet} {bytes : List UInt8} (h : s.IsOf (scan bytes)) :
    readTable bytes = s.entries.mapM s.read := by
  unfold readTable
  generalize scan bytes = records at h
  cases h with
  | empty => rfl
  | @table header data names entries hnames hentries =>
    dsimp only
    rw [textsOf_of_forall₂ hnames]
    exact mapM_eq_of_forall₂ (hentries.imp fun row entry hentry => ofRow_eq hnames hentry entries)

end Sheet

end SweepCharts
