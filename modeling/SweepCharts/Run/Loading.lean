import SweepCharts.Files.Discovery
import SweepCharts.Slice.Table
import SweepCharts.Sweep.Loading

set_option autoImplicit false

/-! # Loading from a file tree

Files are read in the order given, and the first file that cannot be read is the error of all.
-/

namespace SweepCharts

/-- Why a file cannot be loaded. -/
inductive LoadError where
  | unreadable (path : String) (cause : OsError)
  | malformed (path : String) (cause : Csv.Error)
  deriving DecidableEq, Repr

def LoadError.message : LoadError → String
  | unreadable path cause => "Cannot read file " ++ path ++ ": " ++ cause.message
  | malformed path cause => "Malformed CSV in " ++ path ++ ": " ++ cause.message

namespace Tree

/-- What is at a path that is to be loaded. -/
def openSource (t : Tree) (path : String) : Except LoadError Node :=
  (t.open path).mapError (.unreadable path)

/-- The rows of one file of a sweep. -/
def readFile (t : Tree) (path : String) : Except LoadError (List SourceRow) := do
  match ← t.openSource path with
  | .directory => .error (.malformed path .directory)
  | .file content => (readRows path content).mapError (.malformed path)

/-- The rows of all files of a sweep, in the order of the files. -/
def readFiles (t : Tree) (paths : List String) : Except LoadError (List SourceRow) :=
  (paths.mapM t.readFile).map List.flatten

/-- The records of all files of a sweep. -/
def loadRecords (t : Tree) (paths : List String) : Except LoadError (List Record) :=
  (t.readFiles paths).map fun rows => rows.map SourceRow.record

/-- The rows of a slice sweep; a directory has none. -/
def loadSlices (t : Tree) (path : String) : Except LoadError (List SliceRow) := do
  match ← t.openSource path with
  | .directory => .ok []
  | .file content => (SliceRow.readTable content).mapError (.malformed path)

end Tree

end SweepCharts
