import Mathlib.Data.List.TakeWhile
import SweepCharts.Csv.Scanner

set_option autoImplicit false

/-! # Steps of the record reader

What reading a record makes of a run of bytes, by the place in a cell where it starts, and how the
records of a text follow each other.

* `record_keep`, `record_drop`, `record_bare_comma`, `record_bare_break`: one byte.
* `record_bare_append`: bytes of a cell outside quotes.
* `record_of_ends`: where a cell ends, it does not matter how it was written.
* `rows_of_record`: one record, after any breaks.
-/

namespace SweepCharts.Csv

/-- A byte that means nothing outside quotes. -/
def IsPlain (b : UInt8) : Prop := b ≠ comma ∧ isBreak b = false

theorem isBreak_quote : isBreak quote = false := by decide

theorem isBreak_comma : isBreak comma = false := by decide

theorem bareAction_of_isPlain {b : UInt8} (h : IsPlain b) : bareAction b = .keep .bare := by
  simp [bareAction, h.1, h.2]

theorem bareAction_of_isBreak {b : UInt8} (h : isBreak b = true) : bareAction b = .endRecord := by
  have hne : b ≠ comma := by
    rintro rfl
    rw [isBreak_comma] at h
    cases h
  simp [bareAction, hne, h]

/-! ## Bytes of a cell -/

/-- A record with more bytes before it in its first cell. -/
def Record.before (cell taken : List UInt8) (r : Record) : Record :=
  { r with cell := cell ++ r.cell, taken := taken ++ r.taken }

theorem record_keep {mode next : Mode} {b : UInt8} (h : mode.action b = .keep next)
    (bytes : List UInt8) : record mode (b :: bytes) = (record next bytes).before [b] [b] := by
  rw [record, h]
  rfl

theorem record_drop {mode next : Mode} {b : UInt8} (h : mode.action b = .drop next)
    (bytes : List UInt8) : record mode (b :: bytes) = (record next bytes).before [] [b] := by
  rw [record, h]
  rfl

theorem Record.before_before (cell cell' taken taken' : List UInt8) (r : Record) :
    (r.before cell' taken').before cell taken = r.before (cell ++ cell') (taken ++ taken') := by
  simp [Record.before]

/-- Plain bytes outside quotes belong to the cell. -/
theorem record_bare_append {bytes : List UInt8} (h : ∀ b ∈ bytes, IsPlain b) (rest : List UInt8) :
    record .bare (bytes ++ rest) = (record .bare rest).before bytes bytes := by
  induction bytes with
  | nil => rfl
  | cons b bytes ih =>
    have hb : Mode.bare.action b = .keep .bare := bareAction_of_isPlain (h b (.head _))
    rw [List.cons_append, record_keep hb, ih fun c hc => h c (.tail _ hc), Record.before_before]
    rfl

/-- A place where a cell ends: before a comma, a break, or at the end of the text. -/
def Ends (rest : List UInt8) : Prop := ∀ b ∈ rest.head?, b = comma ∨ isBreak b = true

theorem Ends.ne_quote {b : UInt8} {rest : List UInt8} (h : Ends (b :: rest)) : b ≠ quote := by
  rintro rfl
  rcases h quote rfl with h | h
  · exact absurd h (by decide)
  · rw [isBreak_quote] at h
    cases h

/-- Where a cell ends, it may have been empty, bare or closed by a quote. -/
theorem record_of_ends {mode : Mode} (hmode : mode ≠ .quoted) {rest : List UInt8} (h : Ends rest) :
    record mode rest = record .bare rest := by
  cases rest with
  | nil => rfl
  | cons b rest =>
    have hne := h.ne_quote
    have haction : mode.action b = bareAction b := by
      cases mode with
      | quoted => exact absurd rfl hmode
      | bare => rfl
      | start => exact if_neg (by simpa using hne)
      | closing => exact if_neg (by simpa using hne)
    rw [record, record, haction]
    rfl

theorem record_bare_comma (rest : List UInt8) :
    record .bare (comma :: rest) =
      ⟨[], (record .start rest).cell :: (record .start rest).others,
        comma :: (record .start rest).taken, (record .start rest).rest⟩ := rfl

theorem record_bare_break {b : UInt8} (h : isBreak b = true) (rest : List UInt8) :
    record .bare (b :: rest) = ⟨[], [], [b], rest⟩ := by
  rw [record, show Mode.bare.action b = .endRecord from bareAction_of_isBreak h]

/-! ## Records of a text -/

section
variable {lead : List UInt8} {b : UInt8} (hlead : ∀ c ∈ lead, isBreak c = true)
  (hb : isBreak b = false) (body : List UInt8)
include hlead hb

theorem dropWhile_isBreak_append : (lead ++ b :: body).dropWhile isBreak = b :: body := by
  rw [List.dropWhile_append_of_pos hlead,
    List.dropWhile_cons_of_neg (by rw [hb]; exact Bool.false_ne_true)]

theorem takeWhile_isBreak_append : (lead ++ b :: body).takeWhile isBreak = lead := by
  rw [List.takeWhile_append_of_pos hlead,
    List.takeWhile_cons_of_neg (by rw [hb]; exact Bool.false_ne_true), List.append_nil]

end

theorem rows_eq_nil {p : Position} {bytes : List UInt8} (h : ∀ b ∈ bytes, isBreak b = true) :
    rows p bytes = [] := by
  have hnil : bytes.dropWhile isBreak = [] := List.dropWhile_eq_nil_iff.2 h
  rw [rows]
  split
  · rfl
  · rename_i hcons
    rw [hnil] at hcons
    cases hcons

/-- A record after any breaks, and the records after it. -/
theorem rows_of_record {p : Position} {lead body : List UInt8} {b : UInt8}
    (hlead : ∀ c ∈ lead, isBreak c = true) (hb : isBreak b = false) :
    rows p (lead ++ b :: body) =
      ⟨p, (record .start (b :: body)).cell :: (record .start (b :: body)).others⟩ ::
        rows (p.after (lead ++ (record .start (b :: body)).taken))
          (record .start (b :: body)).rest := by
  have hdrop := dropWhile_isBreak_append hlead hb body
  rw [rows]
  split
  · rename_i hnil
    rw [hdrop] at hnil
    cases hnil
  · rename_i hcons
    rw [takeWhile_isBreak_append hlead hb]
    obtain ⟨rfl, rfl⟩ := List.cons.inj (hdrop.symm.trans hcons)
    rfl

end SweepCharts.Csv
