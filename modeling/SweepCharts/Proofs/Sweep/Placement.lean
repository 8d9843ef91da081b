import Mathlib.Data.List.TakeWhile
import SweepCharts.Proofs.Sweep.Taking

set_option autoImplicit false

/-! # Every cell has one place

A cell of a row ends up among the unknown columns, in the typed field of its column, among the
invalid cells, or nowhere if it is blank. `Record.Keeps` says what each of these means for a record,
with the fields of a record listed under the names that the header has for them (`Record.fields`).

* `isBlank_ofText`: a cell is blank when its text is.
* `field_ofCells`: a field is read from the cell of its own column.
* `keeps_unknown`, `keeps_known`: which of the four places keeps a cell.
* `ofRow_keeps_each_cell_once`: exactly one of them does, and a record holds nothing else.
-/

namespace SweepCharts

/-! ## Fields under their names -/

/-- The columns of a sweep file, in their order. -/
def header : List String :=
  ["batchSize", "flushIntervalMs", "frames", "payloadBytes", "timeoutMs", "p50Ms", "p99Ms", "maxMs",
   "throughputMsgSec", "received", "dropped", "outstanding", "clientFlushes", "clientAvgBuffers",
   "clientMaxBuffers", "clientAvgBytes", "clientMaxBytes", "clientBackpressure", "serverFlushes",
   "serverAvgBuffers", "serverMaxBuffers", "serverAvgBytes", "serverMaxBytes",
   "serverBackpressure"]

/-- A typed field of a record. -/
inductive Field where
  | whole (value : Option Int)
  | real (value : Option Binary64)
  deriving DecidableEq

namespace Field

def IsEmpty : Field → Prop
  | whole value => value = none
  | real value => value = none

/-- The cell converts to the type of the field, and the field holds what it converts to. -/
def Holds (cell : Cell) : Field → Prop
  | whole value => ∃ n, cell.toInt? = some n ∧ value = some n
  | real value => ∃ x, cell.toFloat? = some x ∧ value = some x

/-- The cell does not convert to the type of the field. -/
def Rejects (cell : Cell) : Field → Prop
  | whole _ => cell.toInt? = none
  | real _ => cell.toFloat? = none

end Field

/-- The typed fields of a record under the names of their columns. -/
def Record.fields (r : Record) : List (String × Field) :=
  [("batchSize", .whole r.batchSize), ("flushIntervalMs", .whole r.flushIntervalMs),
   ("frames", .whole r.frames), ("payloadBytes", .whole r.payloadBytes),
   ("timeoutMs", .whole r.timeoutMs), ("p50Ms", .real r.p50Ms), ("p99Ms", .real r.p99Ms),
   ("maxMs", .real r.maxMs), ("throughputMsgSec", .real r.throughputMsgSec),
   ("received", .whole r.received), ("dropped", .whole r.dropped),
   ("outstanding", .whole r.outstanding), ("clientFlushes", .whole r.client.flushes),
   ("clientAvgBuffers", .real r.client.avgBuffers),
   ("clientMaxBuffers", .whole r.client.maxBuffers),
   ("clientAvgBytes", .real r.client.avgBytes), ("clientMaxBytes", .whole r.client.maxBytes),
   ("clientBackpressure", .whole r.client.backpressure),
   ("serverFlushes", .whole r.server.flushes), ("serverAvgBuffers", .real r.server.avgBuffers),
   ("serverMaxBuffers", .whole r.server.maxBuffers),
   ("serverAvgBytes", .real r.server.avgBytes), ("serverMaxBytes", .whole r.server.maxBytes),
   ("serverBackpressure", .whole r.server.backpressure)]

/-- Where a cell can end up. -/
inductive Place where
  | extra | absent | typed | invalid
  deriving DecidableEq, Repr

/-- What it means that a record keeps the cell `text` of the column `name` in a place. -/
def Record.Keeps (r : Record) (name text : String) : Place → Prop
  | .extra => name ∉ header ∧ r.extra.get? name = some (Cell.ofText text) ∧
      r.invalid.get? name = none
  | .absent => name ∈ header ∧ isBlankText text = true ∧
      (∃ field, (name, field) ∈ r.fields ∧ field.IsEmpty) ∧
      r.extra.get? name = none ∧ r.invalid.get? name = none
  | .typed => name ∈ header ∧
      (∃ field, (name, field) ∈ r.fields ∧ field.Holds (Cell.ofText text)) ∧
      r.extra.get? name = none ∧ r.invalid.get? name = none
  | .invalid => name ∈ header ∧ isBlankText text = false ∧
      (∃ field, (name, field) ∈ r.fields ∧ field.IsEmpty ∧ field.Rejects (Cell.ofText text)) ∧
      r.extra.get? name = none ∧ r.invalid.get? name = some (Cell.ofText text)

/-! ## Blank cells -/

theorem trimmed_eq_nil {text : String} (h : isBlankText text = true) : trimmed text = [] := by
  have hall : text.toList.dropWhile isBlankChar = [] := List.dropWhile_eq_nil_iff.2 (by
    simpa [isBlankText] using h)
  rw [trimmed, trimBoth, hall]
  rfl

/-- A text without visible characters is no number, so it stays a text, and a text stays as it
is. -/
theorem isBlank_ofText (text : String) : (Cell.ofText text).isBlank = isBlankText text := by
  cases hb : isBlankText text with
  | true =>
    have h : Cell.ofText text = .text text := by
      rw [Cell.ofText, trimmed_eq_nil hb]
      rfl
    rw [h]
    exact hb
  | false =>
    unfold Cell.ofText
    dsimp only
    split
    · rfl
    · split
      · rfl
      · exact hb

theorem convert_of_isBlank {cell : Cell} (h : cell.isBlank = true) (c : Column) :
    c.convert cell = none := by
  cases cell with
  | text s =>
    unfold Column.convert
    split <;> rfl
  | _ => cases h

/-! ## The fields of a row -/

/-- What a column makes of its cell. -/
def Column.read (c : Column) (cell : Option Cell) : Field :=
  if c.isWhole then .whole (cell.bind Cell.toInt?) else .real (cell.bind Cell.toFloat?)

/-- The field of a column. -/
def Record.field (r : Record) (c : Column) : Field := c.read (r.value? c)

theorem header_eq : header = Column.all.map Column.name := by decide

theorem mem_header {name : String} : name ∈ header ↔ (Column.ofName? name).isSome = true := by
  rw [header_eq, Column.mem_map_name_all]

theorem fields_eq (r : Record) : r.fields = Column.all.map fun c => (c.name, r.field c) := by
  have hint (v : Option Int) : (v.map Cell.int).bind Cell.toInt? = v := by cases v <;> rfl
  have hfloat (v : Option Binary64) : (v.map Cell.float).bind Cell.toFloat? = v := by
    cases v <;> rfl
  simp [Record.fields, Record.field, Column.read, Column.all, Column.plain, Stat.all, Column.name,
    Side.column, Side.name, Stat.suffix, Column.isWhole, Stat.isWhole, Record.value?, Stats.value?,
    Record.side, hint, hfloat]

/-- The header names every field once. -/
theorem mem_fields {r : Record} {c : Column} {field : Field} :
    (c.name, field) ∈ r.fields ↔ field = r.field c := by
  rw [fields_eq, List.mem_map]
  constructor
  · rintro ⟨d, -, h⟩
    obtain ⟨hname, hfield⟩ := Prod.mk.inj h
    rw [← hfield, Column.name_injective hname]
  · rintro rfl
    exact ⟨c, Column.mem_all c, rfl⟩

theorem field_ofCells (origin : Origin) (cells : Columns Cell) (c : Column) :
    (Record.ofCells origin cells).field c = c.read (cells.get? c.name) := by
  have hint (cell : Option Cell) (h : c.isWhole = true) :
      (cell.bind c.convert).bind Cell.toInt? = cell.bind Cell.toInt? := by
    rw [Option.bind_assoc]
    refine congrArg _ (funext fun cell => ?_)
    rw [Column.convert, if_pos h]
    cases cell.toInt? <;> rfl
  have hfloat (cell : Option Cell) (h : c.isWhole = false) :
      (cell.bind c.convert).bind Cell.toFloat? = cell.bind Cell.toFloat? := by
    rw [Option.bind_assoc]
    refine congrArg _ (funext fun cell => ?_)
    rw [Column.convert, h, if_neg Bool.false_ne_true]
    cases cell.toFloat? <;> rfl
  rw [Record.field, value?_ofCells]
  unfold Column.read
  cases hw : c.isWhole with
  | true => rw [if_pos rfl, if_pos rfl, hint _ hw]
  | false => rw [if_neg Bool.false_ne_true, if_neg Bool.false_ne_true, hfloat _ hw]

theorem isEmpty_read_none (c : Column) : (c.read none).IsEmpty := by
  unfold Column.read
  split <;> rfl

theorem isEmpty_read {c : Column} {cell : Cell} :
    (c.read (some cell)).IsEmpty ↔ c.convert cell = none := by
  unfold Column.read Column.convert
  split
  · exact Option.map_eq_none_iff.symm
  · exact Option.map_eq_none_iff.symm

theorem rejects_read {c : Column} {cell : Cell} :
    (c.read (some cell)).Rejects cell ↔ c.convert cell = none := by
  unfold Column.read Column.convert
  split
  · exact Option.map_eq_none_iff.symm
  · exact Option.map_eq_none_iff.symm

theorem holds_read {c : Column} {cell : Cell} :
    (c.read (some cell)).Holds cell ↔ c.convert cell ≠ none := by
  unfold Column.read Column.convert
  split
  · simp [Field.Holds, ← Option.isSome_iff_exists, Option.isSome_iff_ne_none]
  · simp [Field.Holds, ← Option.isSome_iff_exists, Option.isSome_iff_ne_none]

/-! ## The place of a cell -/

section
variable {origin : Origin} {row : Columns String} {name text : String}

theorem get?_extra_ofRow (origin : Origin) (h : row.get? name = some text) :
    (Record.ofRow origin row).extra.get? name =
      if name ∈ header then none else some (Cell.ofText text) := by
  rw [Record.ofRow, get?_extra_ofCells, Columns.get?_map, h]
  simp only [mem_header, Option.map_some]

theorem get?_invalid_ofRow (origin : Origin) (h : row.get? name = some text) :
    (Record.ofRow origin row).invalid.get? name =
      if (Cell.ofText text).isInvalidFor name then some (Cell.ofText text) else none := by
  rw [Record.ofRow, get?_invalid_ofCells, Columns.get?_map, h, Option.map_some, Option.filter_some]

/-- A cell of an unknown column is kept in one place only. -/
theorem keeps_unknown (h : row.get? name = some text) (hname : name ∉ header) (place : Place) :
    (Record.ofRow origin row).Keeps name text place ↔ place = .extra := by
  have hextra := get?_extra_ofRow origin h
  have hinvalid := get?_invalid_ofRow origin h
  have hnone : Column.ofName? name = none := by
    rw [mem_header, Bool.not_eq_true, Option.isSome_eq_false_iff] at hname
    exact Option.isNone_iff_eq_none.1 hname
  rw [if_neg hname] at hextra
  rw [Cell.isInvalidFor, hnone] at hinvalid
  cases place with
  | extra => exact ⟨fun _ => rfl, fun _ => ⟨hname, hextra, hinvalid⟩⟩
  | _ => exact ⟨fun hk => absurd hk.1 hname, fun hp => absurd hp (by decide)⟩

/-- The place of a cell of a known column. -/
def placeFor (c : Column) (text : String) : Place :=
  if isBlankText text then .absent
  else if (c.convert (Cell.ofText text)).isSome then .typed
  else .invalid

/-- A cell of a known column is kept in one place only. -/
theorem keeps_known {c : Column} (h : row.get? c.name = some text) (place : Place) :
    (Record.ofRow origin row).Keeps c.name text place ↔ place = placeFor c text := by
  have hmem : c.name ∈ header := mem_header.2 (by rw [Column.ofName?_name]; rfl)
  have hextra := get?_extra_ofRow origin h
  have hinvalid := get?_invalid_ofRow origin h
  have hfield : (Record.ofRow origin row).field c = c.read (some (Cell.ofText text)) := by
    rw [Record.ofRow, field_ofCells, Columns.get?_map, h, Option.map_some]
  rw [if_pos hmem] at hextra
  rw [Cell.isInvalidFor_name, isBlank_ofText] at hinvalid
  unfold placeFor
  cases hb : isBlankText text with
  | true =>
    have hv : c.convert (Cell.ofText text) = none :=
      convert_of_isBlank ((isBlank_ofText text).trans hb) c
    cases place <;> simp_all [Record.Keeps, mem_fields, isEmpty_read, holds_read]
  | false =>
    cases hv : c.convert (Cell.ofText text) with
    | some value =>
      cases place <;> simp_all [Record.Keeps, mem_fields, isEmpty_read, holds_read, rejects_read]
    | none =>
      cases place <;> simp_all [Record.Keeps, mem_fields, isEmpty_read, holds_read, rejects_read]

/-- A column without a cell leaves nothing in a record. -/
theorem get?_ofRow_of_absent (h : row.get? name = none) :
    (Record.ofRow origin row).extra.get? name = none ∧
      (Record.ofRow origin row).invalid.get? name = none ∧
      ∀ field, (name, field) ∈ (Record.ofRow origin row).fields → field.IsEmpty := by
  have hcell : (row.map Cell.ofText).get? name = none := by
    rw [Columns.get?_map, h]
    rfl
  refine ⟨?_, ?_, fun field hf => ?_⟩
  · rw [Record.ofRow, get?_extra_ofCells, hcell, ite_self]
  · rw [Record.ofRow, get?_invalid_ofCells, hcell]
    rfl
  · rw [fields_eq] at hf
    obtain ⟨c, -, he⟩ := List.mem_map.1 hf
    obtain ⟨rfl, rfl⟩ := Prod.mk.inj he
    rw [Record.ofRow, field_ofCells, hcell]
    exact isEmpty_read_none c

end

/-- **Every cell of a row ends up in exactly one place**: among the unknown columns as it was read,
nowhere if its column is known and it is blank, in the field of its column if it converts, and else
among the invalid cells as it was read. Fields without a cell are empty, and a record holds nothing
else but its origin. -/
theorem ofRow_keeps_each_cell_once (origin : Origin) (row : Columns String) :
    let r := Record.ofRow origin row
    r.origin = origin ∧ r.fields.map Prod.fst = header ∧
      (∀ name text, row.get? name = some text → ∃! place, r.Keeps name text place) ∧
      ∀ name, row.get? name = none → r.extra.get? name = none ∧ r.invalid.get? name = none ∧
        ∀ field, (name, field) ∈ r.fields → field.IsEmpty := by
  refine ⟨origin_ofCells origin _, rfl, fun name text h => ?_, fun name h => ?_⟩
  · by_cases hname : name ∈ header
    · obtain ⟨c, hc⟩ := Option.isSome_iff_exists.1 (mem_header.1 hname)
      obtain rfl := Column.ofName?_eq_some.1 hc
      exact ⟨placeFor c text, (keeps_known h _).2 rfl, fun p hp => (keeps_known h p).1 hp⟩
    · exact ⟨.extra, (keeps_unknown h hname _).2 rfl, fun p hp => (keeps_unknown h hname p).1 hp⟩
  · exact get?_ofRow_of_absent h

end SweepCharts
