import SweepCharts.Chart.KindJson
import SweepCharts.Run.Loading
import SweepCharts.Text.Message

set_option autoImplicit false

/-! # Steps of a run

A run works on a file tree and a log. A step that fails keeps what was written and logged before.
-/

namespace SweepCharts

/-- A page that no program could be started for. -/
structure Unopened where
  page : String
  cause : OsError
  deriving DecidableEq, Repr

/-- Why a run ends early. -/
inductive RunError where
  | load (cause : LoadError)
  | noInputFiles (dataDir : String)
  /-- The dump of the records cannot be written. -/
  | undumped (path : String) (cause : OsError)
  | unwritable (path : String) (cause : OsError)
  | unrendered (kind : ChartKind) (cause : OsError)
  | unopened (failure : Unopened)
  deriving DecidableEq, Repr

def RunError.message : RunError → String
  | load cause => cause.message
  | noInputFiles dir =>
    "No CSV files found in " ++ dir ++ ". Run a bench with --csv=" ++ dir ++ "/bench-write.csv"
  | undumped path cause => "Cannot read file " ++ path ++ ": " ++ cause.message
  | unwritable path cause => "Cannot write " ++ path ++ ": " ++ cause.message
  | unrendered kind cause =>
    "Failed to render " ++ kind.display ++ ": Image rendering error: " ++ cause.message
  | unopened failure =>
    "Failed to open " ++ failure.page ++ " in browser: " ++ failure.cause.message

/-- What a run works on. -/
structure Workspace where
  tree : Tree
  log : List LogLine := []
  deriving DecidableEq

/-- A step of a run. -/
abbrev Job (α : Type) : Type := ExceptT RunError (StateM Workspace) α

namespace Job

/-- Adds messages to the log. -/
def say (lines : List LogLine) : Job Unit := modify fun w => { w with log := w.log ++ lines }

/-- A question to the tree that does not change it. -/
def ask {α : Type} (question : Tree → Except LoadError α) : Job α := do
  match question (← get).tree with
  | .ok answer => pure answer
  | .error e => throw (.load e)

/-- Makes a directory with all that lead to it. -/
def makeDirectory (path : String) (fault : OsError → RunError) : Job Unit := do
  let w ← get
  let (tree, result) := w.tree.ensureDirectory path
  set { w with tree }
  match result with
  | .ok () => pure ()
  | .error e => throw (fault e)

/-- Writes a text into a file. -/
def writeFile (path text : String) (fault : OsError → RunError) : Job Unit := do
  let w ← get
  match w.tree.write path (Utf8.encode text) with
  | .ok tree => set { w with tree }
  | .error e => throw (fault e)

end Job

end SweepCharts
