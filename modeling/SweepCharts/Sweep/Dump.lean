import SweepCharts.Sweep.Record

set_option autoImplicit false

/-! # Records as JSON

A record is an object with a member for each value, doubles rounded to three decimals, then the
statistics of both sides and the cells that filled no column.
-/

namespace SweepCharts

/-- A value of a typed column. -/
def Cell.rounded : Cell → Json
  | .float x => .float x.toThousandths
  | cell => cell.toJson

namespace Columns

/-- Cells by name as an object. -/
def toJson (cells : Columns Cell) : Json :=
  .object (cells.entries.map fun e => (e.1, e.2.toJson))

/-- A member for cells by name, unless there are none. -/
def member (key : String) (cells : Columns Cell) : List (String × Json) :=
  if cells.isEmpty then [] else [(key, cells.toJson)]

end Columns

def Stats.toJson (s : Stats) : Json :=
  .object (Stat.all.flatMap fun stat => Json.member? stat.name Cell.rounded (s.value? stat))

namespace Record

def toJson (r : Record) : Json :=
  .object
    (Column.plain.flatMap (fun c => Json.member? c.name Cell.rounded (r.value? c)) ++
      [("client", r.client.toJson), ("server", r.server.toJson)] ++
      r.extra.member "extra" ++ r.invalid.member "invalid")

/-- The text of a dump of records. -/
def dump (records : List Record) : String := (Json.array (records.map toJson)).pretty

end Record

end SweepCharts
