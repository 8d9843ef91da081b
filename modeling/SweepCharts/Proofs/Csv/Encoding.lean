import SweepCharts.Proofs.Csv.LineNumber
import SweepCharts.Proofs.Csv.RoundTrip
import SweepCharts.Proofs.Traversal

set_option autoImplicit false

/-! # Tables of text are read without fault

The reader cuts a table into cells at bytes below 0x80 and leaves some of those bytes out. They are
characters of their own wherever they stand, so every cell of a text is a text, in quotes or not,
closed or not. A cell that is no text is the only fault that a table can have.

* `isText_record`: the cells of a record, by induction on the characters, in every mode.
* `isText_rows`, `isText_scan`: the cells of all records.
* `exists_readTable_of_isText`: a table of text has its lines.
-/

namespace SweepCharts.Csv

open Utf8 (IsText)

/-! ## Characters and marks -/

/-- Nothing but bytes below 0x80 is a mark. -/
theorem isPlain_of_high {b : UInt8} (h : 0x80 ≤ b.toNat) : IsPlain b ∧ b ≠ quote := by
  refine ⟨⟨?_, ?_⟩, ?_⟩
  · rintro rfl
    exact absurd h (by decide)
  · cases hbreak : isBreak b with
    | false => rfl
    | true =>
      simp only [isBreak, Bool.or_eq_true, beq_iff_eq] at hbreak
      rcases hbreak with rfl | rfl
      · exact absurd h (by decide)
      · exact absurd h (by decide)
  · rintro rfl
    exact absurd h (by decide)

theorem exists_action_keep {b : UInt8} (h : 0x80 ≤ b.toNat) (mode : Mode) :
    ∃ next, mode.action b = .keep next := by
  obtain ⟨hplain, hquote⟩ := isPlain_of_high h
  have hbare := bareAction_of_isPlain hplain
  cases mode with
  | start => exact ⟨.bare, (if_neg (by simpa using hquote)).trans hbare⟩
  | bare => exact ⟨.bare, hbare⟩
  | quoted => exact ⟨.quoted, if_neg (by simpa using hquote)⟩
  | closing => exact ⟨.bare, (if_neg (by simpa using hquote)).trans hbare⟩

/-- A character of several bytes belongs to its cell as a whole. -/
theorem exists_record_high {bytes : List UInt8} (h : ∀ b ∈ bytes, 0x80 ≤ b.toNat) (mode : Mode)
    (rest : List UInt8) :
    ∃ next, record mode (bytes ++ rest) = (record next rest).before bytes bytes := by
  induction bytes generalizing mode with
  | nil => exact ⟨mode, rfl⟩
  | cons b bytes ih =>
    obtain ⟨middle, haction⟩ := exists_action_keep (h b (.head _)) mode
    obtain ⟨next, hnext⟩ := ih (fun d hd => h d (.tail _ hd)) middle
    refine ⟨next, ?_⟩
    rw [List.cons_append, record_keep haction, hnext, Record.before_before]
    rfl

/-! ## Records -/

/-- The cells of a record are texts, and so is what comes after it. -/
structure Record.HasTexts (r : Record) : Prop where
  cell : IsText r.cell
  others : ∀ cell ∈ r.others, IsText cell
  rest : IsText r.rest

/-- **The cells of a record are texts**, from any place in a cell. -/
theorem isText_record (mode : Mode) (chars : List Char) :
    (record mode (chars.flatMap String.utf8EncodeChar)).HasTexts := by
  induction chars generalizing mode with
  | nil => exact ⟨Utf8.isText_nil, fun _ h => absurd h List.not_mem_nil, Utf8.isText_nil⟩
  | cons c chars ih =>
    rw [List.flatMap_cons]
    rcases Utf8.utf8EncodeChar_cases c with ⟨b, hb⟩ | ⟨b, tail, hb, hhigh⟩
    · -- the only characters that can be marks
      have hcons {cell : List UInt8} (h : IsText cell) : IsText (b :: cell) := by
        have := h.cons_char c
        rwa [hb, List.singleton_append] at this
      rw [hb, List.singleton_append]
      cases haction : mode.action b with
      | keep next =>
        rw [record_keep haction]
        exact ⟨hcons (ih next).cell, (ih next).others, (ih next).rest⟩
      | drop next =>
        rw [record_drop haction]
        exact ⟨(ih next).cell, (ih next).others, (ih next).rest⟩
      | endCell =>
        rw [record, haction]
        refine ⟨Utf8.isText_nil, fun cell hcell => ?_, (ih .start).rest⟩
        rcases List.mem_cons.1 hcell with rfl | hcell
        · exact (ih .start).cell
        · exact (ih .start).others cell hcell
      | endRecord =>
        rw [record, haction]
        exact ⟨Utf8.isText_nil, fun _ h => absurd h List.not_mem_nil, Utf8.isText_flatMap chars⟩
    · obtain ⟨next, hrecord⟩ := exists_record_high (hb ▸ hhigh) mode
        (chars.flatMap String.utf8EncodeChar)
      rw [hrecord]
      exact ⟨(ih next).cell.cons_char c, (ih next).others, (ih next).rest⟩

theorem toNat_lt_of_isBreak {b : UInt8} (h : isBreak b = true) : b.toNat < 0x80 := by
  simp only [isBreak, Bool.or_eq_true, beq_iff_eq] at h
  rcases h with rfl | rfl <;> decide

/-- **The cells of all records are texts**, by induction over the records. -/
theorem isText_rows {p : Position} {bytes : List UInt8} (h : IsText bytes) :
    ∀ row ∈ rows p bytes, ∀ cell ∈ row.cells, IsText cell := by
  induction hn : bytes.length using Nat.strong_induction_on generalizing p bytes with
  | _ n ih =>
  rcases exists_lead bytes with hall | ⟨lead, b, body, rfl, hlead, hb⟩
  · rw [rows_eq_nil hall]
    exact fun row hrow => absurd hrow List.not_mem_nil
  · have hbody : IsText (b :: body) :=
      h.of_append_ascii fun d hd => toNat_lt_of_isBreak (hlead d hd)
    have hlt := length_rest_lt .start b body
    have htexts : (record .start (b :: body)).HasTexts := by
      obtain ⟨chars, hchars⟩ := hbody.exists_chars
      rw [hchars]
      exact isText_record .start chars
    rw [rows_of_record hlead hb]
    generalize record .start (b :: body) = r at hlt htexts ⊢
    intro row hrow cell hcell
    rcases List.mem_cons.1 hrow with rfl | hrow
    · rcases List.mem_cons.1 hcell with rfl | hcell
      · exact htexts.cell
      · exact htexts.others cell hcell
    · refine ih r.rest.length ?_ htexts.rest rfl row hrow cell hcell
      rw [← hn, List.length_append]
      omega

/-- A byte order mark is a character. -/
theorem isText_splitMark {bytes : List UInt8} (h : IsText bytes) : IsText (splitMark bytes).2 := by
  by_cases hmark : WrittenTable.mark <+: bytes
  · obtain ⟨rest, rfl⟩ := hmark
    obtain ⟨chars, hchars⟩ := h.exists_chars
    cases chars with
    | nil => cases hchars
    | cons c chars =>
      rw [List.flatMap_cons] at hchars
      obtain rfl := eq_of_isPrefix_mark ⟨rest, hchars⟩
      have hmark : String.utf8EncodeChar '\ufeff' = WrittenTable.mark := rfl
      rw [hmark] at hchars
      rw [splitMark_mark, List.append_cancel_left hchars]
      exact Utf8.isText_flatMap chars
  · have hsplit := splitMark_of_not_prefix hmark
    rw [hsplit]
    exact h

theorem isText_scan {bytes : List UInt8} (h : IsText bytes) :
    ∀ row ∈ scan bytes, ∀ cell ∈ row.cells, IsText cell := by
  have hrows := isText_rows (p := .first) (isText_splitMark h)
  unfold scan
  generalize splitMark bytes = split at hrows ⊢
  intro row hrow
  dsimp only at hrow
  split at hrow
  · exact absurd hrow List.not_mem_nil
  · rename_i header data hcons
    rw [hcons] at hrows
    rcases List.mem_cons.1 hrow with rfl | hrow
    · exact hrows _ (.head _)
    · obtain ⟨unshifted, hmem, rfl⟩ := List.mem_map.1 hrow
      exact hrows unshifted (.tail _ hmem)

/-! ## Tables -/

theorem exists_eq_map_encode {cells : List (List UInt8)} (h : ∀ cell ∈ cells, IsText cell) :
    ∃ texts : List String, cells = texts.map Utf8.encode := by
  induction cells with
  | nil => exact ⟨[], rfl⟩
  | cons cell cells ih =>
    obtain ⟨text, rfl⟩ := h cell (.head _)
    obtain ⟨texts, rfl⟩ := ih fun d hd => h d (.tail _ hd)
    exact ⟨text :: texts, rfl⟩

/-- Cells that are texts have no fault. -/
theorem Row.exists_texts {row : Row} (h : ∀ cell ∈ row.cells, IsText cell) :
    ∃ texts, row.texts = .ok texts := by
  obtain ⟨texts, htexts⟩ := exists_eq_map_encode h
  rw [Row.texts, htexts]
  exact ⟨texts, decodeFrom_encode row.position 0 texts⟩

theorem exists_readTable_of_isText {bytes : List UInt8} (h : IsText bytes) :
    ∃ lines, readTable bytes = .ok lines := by
  have hscan := isText_scan h
  unfold readTable
  generalize scan bytes = rows at hscan ⊢
  cases rows with
  | nil => exact ⟨[], rfl⟩
  | cons header data =>
    obtain ⟨names, hnames⟩ := Row.exists_texts (hscan header (.head _))
    have hdata : ∀ row ∈ data, ∃ line, row.line names = .ok line := by
      intro row hrow
      obtain ⟨texts, htexts⟩ := Row.exists_texts (hscan row (.tail _ hrow))
      exact ⟨_, by rw [Row.line, htexts]; rfl⟩
    obtain ⟨lines, hlines⟩ := exists_mapM_eq_ok hdata
    refine ⟨lines, ?_⟩
    simp only [hnames]
    exact hlines

end SweepCharts.Csv
