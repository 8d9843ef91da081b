import SweepCharts.Number.Binary64

set_option autoImplicit false

/-! # JSON values

Objects keep the order of their members.
-/

namespace SweepCharts

inductive Json where
  | null
  | bool (value : Bool)
  | int (value : Int)
  | float (value : Binary64)
  | string (value : String)
  | array (items : List Json)
  | object (members : List (String × Json))

namespace Json

/-- A list of numbers. -/
def floats (xs : List Binary64) : Json := array (xs.map float)

/-- A member that is left out if there is no value. -/
def member? {α : Type} (key : String) (write : α → Json) (value : Option α) :
    List (String × Json) :=
  match value with
  | some x => [(key, write x)]
  | none => []

/-- A member for a list, unless it is empty. -/
def listMember (key : String) (items : List Json) : List (String × Json) :=
  if items.isEmpty then [] else [(key, array items)]

/-- An object with one member. -/
def single (key : String) (value : Json) : Json := object [(key, value)]

end Json

end SweepCharts
