import SweepCharts.Files.Access

set_option autoImplicit false

/-! # Finding tables in a directory

The files with the extension `csv` directly in a directory, in the order of their names.
-/

namespace SweepCharts

/-- The extension of tables. -/
def tableExtension : String := "csv"

namespace Tree

/-- Whether a name in a directory is that of a table, and its path text is not too long. -/
def isTable (t : Tree) (dir : String) (loc : Location) (name : String) : Bool :=
  match t.node? (loc ++ [name]) with
  | some (.file _) =>
    Path.extension? name = some tableExtension &&
      (Path.join dir name).utf8ByteSize ≤ Path.maxBytes
  | _ => false

/-- The names of the tables in a directory, in ascending order. -/
def tableNames (t : Tree) (dir : String) (loc : Location) : List String :=
  ((t.names loc).filter (t.isTable dir loc)).mergeSort fun a b => decide (a ≤ b)

/-- The path texts of the tables in a directory; there are none in what is no directory. -/
def discover (t : Tree) (dir : String) : List String :=
  match Path.ofText dir with
  | .error _ => []
  | .ok p =>
    match t.find p, t.locate p with
    | .ok .directory, .ok loc => (t.tableNames dir loc).map (Path.join dir)
    | _, _ => []

end Tree

end SweepCharts
