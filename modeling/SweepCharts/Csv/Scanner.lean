set_option autoImplicit false

/-! # Records of a table in text form

A record is a list of cells, each a list of bytes. Commas part the cells of a record, a CR or LF
byte ends it, and a cell that starts with a quote may hold all of these. `record` reads one record,
`rows` all of them with the position where each was met, `scan` also drops a byte order mark.

* `taken_append_rest`: a record takes bytes from the front and leaves the rest as it was.
-/

namespace SweepCharts.Csv

def comma : UInt8 := 0x2C
def quote : UInt8 := 0x22
def lineFeed : UInt8 := 0x0A
def carriageReturn : UInt8 := 0x0D

/-- Whether a byte ends a record. -/
def isBreak (b : UInt8) : Bool := b == lineFeed || b == carriageReturn

/-! ## One record -/

/-- Where a cell is being read. -/
inductive Mode where
  /-- Before its first byte. -/
  | start
  /-- Outside quotes. -/
  | bare
  /-- Inside quotes. -/
  | quoted
  /-- After a quote that may close the quotes or be doubled. -/
  | closing
  deriving DecidableEq, Repr

/-- What a byte does. -/
inductive Action where
  /-- It belongs to the cell. -/
  | keep (next : Mode)
  /-- It is a mark of quoting. -/
  | drop (next : Mode)
  | endCell
  | endRecord
  deriving DecidableEq, Repr

/-- A byte outside quotes. -/
def bareAction (b : UInt8) : Action :=
  if b == comma then .endCell else if isBreak b then .endRecord else .keep .bare

/-- Only the first byte of a cell can open quotes. After a closing quote the cell goes on without
quotes. -/
def Mode.action : Mode → UInt8 → Action
  | .start, b => if b == quote then .drop .quoted else bareAction b
  | .bare, b => bareAction b
  | .quoted, b => if b == quote then .drop .closing else .keep .quoted
  | .closing, b => if b == quote then .keep .quoted else bareAction b

/-- A record, its first cell apart, the bytes it takes and the bytes after it. -/
structure Record where
  cell : List UInt8
  others : List (List UInt8)
  taken : List UInt8
  rest : List UInt8
  deriving Repr

/-- The record that goes on from a place in a cell; the end of the text ends it in any mode. -/
def record (mode : Mode) : List UInt8 → Record
  | [] => ⟨[], [], [], []⟩
  | b :: bytes =>
    match mode.action b with
    | .keep next =>
      let r := record next bytes
      { r with cell := b :: r.cell, taken := b :: r.taken }
    | .drop next =>
      let r := record next bytes
      { r with taken := b :: r.taken }
    | .endCell =>
      let r := record .start bytes
      { r with cell := [], others := r.cell :: r.others, taken := b :: r.taken }
    | .endRecord => ⟨[], [], [b], bytes⟩

theorem taken_append_rest (mode : Mode) (bytes : List UInt8) :
    (record mode bytes).taken ++ (record mode bytes).rest = bytes := by
  induction bytes generalizing mode with
  | nil => rfl
  | cons b bytes ih => unfold record; split <;> simp [ih]

theorem length_rest_lt (mode : Mode) (b : UInt8) (bytes : List UInt8) :
    (record mode (b :: bytes)).rest.length < (b :: bytes).length := by
  have h (m : Mode) : (record m bytes).rest.length ≤ bytes.length := by
    conv => rhs; rw [← taken_append_rest m bytes]
    simp
  unfold record
  split
  · exact Nat.lt_succ_of_le (h _)
  · exact Nat.lt_succ_of_le (h _)
  · exact Nat.lt_succ_of_le (h .start)
  · exact Nat.lt_succ_self _

/-! ## All records -/

/-- The end of the previous record: its line from 1, its byte from 0, and the number of records
before. -/
structure Position where
  line : Nat
  byte : Nat
  record : Nat
  deriving DecidableEq, Repr

namespace Position

def first : Position := ⟨1, 0, 0⟩

/-- The position after one more record that ends with these bytes. -/
def after (p : Position) (bytes : List UInt8) : Position :=
  ⟨p.line + bytes.count lineFeed, p.byte + bytes.length, p.record + 1⟩

end Position

/-- A record and the position where the one before it ended. -/
structure Row where
  position : Position
  cells : List (List UInt8)
  deriving DecidableEq, Repr

theorem length_rest_lt_of_dropWhile {bytes body : List UInt8} {b : UInt8}
    (h : bytes.dropWhile isBreak = b :: body) :
    (record .start (b :: body)).rest.length < bytes.length := by
  have h1 := length_rest_lt .start b body
  have h2 := (List.dropWhile_sublist isBreak (l := bytes)).length_le
  rw [h] at h2
  exact Nat.lt_of_lt_of_le h1 h2

/-- The records of a text. Breaks before a record are skipped; its position does not count them. -/
def rows (p : Position) (bytes : List UInt8) : List Row :=
  match h : bytes.dropWhile isBreak with
  | [] => []
  | b :: body =>
    have := length_rest_lt_of_dropWhile h
    let r := record .start (b :: body)
    ⟨p, r.cell :: r.others⟩ :: rows (p.after (bytes.takeWhile isBreak ++ r.taken)) r.rest
termination_by bytes.length

/-- The byte order mark of UTF-8 at the start of a text, and the text after it. -/
def splitMark : List UInt8 → List UInt8 × List UInt8
  | 0xEF :: 0xBB :: 0xBF :: rest => ([0xEF, 0xBB, 0xBF], rest)
  | bytes => ([], bytes)

/-- The records of a text after its byte order mark, which counts for the positions of all records
but the first. -/
def scan (bytes : List UInt8) : List Row :=
  let (mark, body) := splitMark bytes
  match rows .first body with
  | [] => []
  | header :: data =>
    header :: data.map fun row =>
      { row with position := { row.position with byte := row.position.byte + mark.length } }

end SweepCharts.Csv
