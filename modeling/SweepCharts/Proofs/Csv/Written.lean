import SweepCharts.Csv.Scanner
import SweepCharts.Text.Utf8

set_option autoImplicit false

/-! # Tables as they may be written

A cell is written in quotes, with its quotes doubled, or bare if nothing in it could be taken for a
mark. Commas part the cells of a record, and one or more CR or LF bytes the records. More of them may
stand before the first record and after the last one, and a byte order mark before everything.
-/

namespace SweepCharts.Csv

/-- A text that can be written without quotes. -/
structure IsBare (text : String) : Prop where
  no_quote : text.toList.head? ≠ some '"'
  no_mark : ∀ c ∈ text.toList, c ≠ ',' ∧ c ≠ '\r' ∧ c ≠ '\n'

/-- A cell, and whether it is written in quotes. -/
structure WrittenCell where
  text : String
  quoted : Bool
  bare : quoted = false → IsBare text

/-- Bytes with every quote written twice. -/
def doubled (bytes : List UInt8) : List UInt8 :=
  bytes.flatMap fun b => if b = quote then [quote, quote] else [b]

def WrittenCell.bytes (c : WrittenCell) : List UInt8 :=
  if c.quoted then quote :: doubled (Utf8.encode c.text) ++ [quote] else Utf8.encode c.text

structure WrittenRecord where
  first : WrittenCell
  others : List WrittenCell
  /-- A single empty cell without quotes would not show. -/
  shows : others = [] → first.text = "" → first.quoted = true

namespace WrittenRecord

def texts (r : WrittenRecord) : List String := (r.first :: r.others).map WrittenCell.text

/-- Cells that follow a cell. -/
def othersBytes (cells : List WrittenCell) : List UInt8 := cells.flatMap fun c => comma :: c.bytes

def bytes (r : WrittenRecord) : List UInt8 := r.first.bytes ++ othersBytes r.others

end WrittenRecord

/-- One or more bytes that end a record: LF, CR, or both, and any further ones. -/
structure Ending where
  first : UInt8
  others : List UInt8
  first_break : isBreak first = true
  others_break : ∀ b ∈ others, isBreak b = true

def Ending.bytes (e : Ending) : List UInt8 := e.first :: e.others

/-- A table: its header, every data record with the ending of the record before it, and what stands
around them. -/
structure WrittenTable where
  marked : Bool
  leading : List UInt8
  header : WrittenRecord
  data : List (Ending × WrittenRecord)
  /-- The ending of the last record, which may be missing. -/
  trailing : List UInt8
  leading_break : ∀ b ∈ leading, isBreak b = true
  trailing_break : ∀ b ∈ trailing, isBreak b = true
  /-- A first cell without quotes is not taken for a byte order mark. -/
  unmarked : header.first.quoted = false → header.first.text.toList.head? ≠ some '\ufeff'

namespace WrittenTable

/-- The byte order mark of UTF-8. -/
def mark : List UInt8 := [0xEF, 0xBB, 0xBF]

/-- Records after a record, up to the end of the text. -/
def dataBytes (data : List (Ending × WrittenRecord)) (trailing : List UInt8) : List UInt8 :=
  (data.flatMap fun e => e.1.bytes ++ e.2.bytes) ++ trailing

def bytes (t : WrittenTable) : List UInt8 :=
  (if t.marked then mark else []) ++
    (t.leading ++ (t.header.bytes ++ dataBytes t.data t.trailing))

end WrittenTable

end SweepCharts.Csv
