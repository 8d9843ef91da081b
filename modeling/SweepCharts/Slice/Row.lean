import SweepCharts.Json.Value

set_option autoImplicit false

/-! # Rows of a slice sweep

A slice sweep compares two kinds of server over the size of a slice.
-/

namespace SweepCharts

structure SliceRow where
  mode : String
  sliceSize : Binary64
  throughput : Binary64
  gc : Binary64
  p99Delay : Binary64
  deriving DecidableEq

/-- A field of a row, named by its column. -/
inductive SliceField where
  | mode | sliceSize | throughput | gc | p99Delay
  deriving DecidableEq, Repr

namespace SliceField

/-- The fields in the order of positions in a row. -/
def all : List SliceField := [mode, sliceSize, throughput, gc, p99Delay]

def name : SliceField → String
  | mode => "mode"
  | sliceSize => "slice_size"
  | throughput => "throughput_msg_s"
  | gc => "gc_ms"
  | p99Delay => "p99_delay_ms"

def ofName? (name : String) : Option SliceField := all.find? fun f => f.name = name

end SliceField

namespace SliceRow

def tsServer : String := "ts-server"
def nativeServer : String := "native-server"

/-- The rows of one kind of server, in their order. -/
def ofMode (mode : String) (rows : List SliceRow) : List SliceRow :=
  rows.filter fun row => row.mode = mode

def toJson (row : SliceRow) : Json :=
  .object [(SliceField.mode.name, .string row.mode),
    (SliceField.sliceSize.name, .float row.sliceSize),
    (SliceField.throughput.name, .float row.throughput), (SliceField.gc.name, .float row.gc),
    (SliceField.p99Delay.name, .float row.p99Delay)]

end SliceRow

end SweepCharts
